import Mathlib.Order.Lattice
import MoteBench.Time

/-! Instants in their linear order. -/
namespace MoteBench.Instant

instance : LinearOrder Instant where
  le := (· ≤ ·)
  lt := (· < ·)
  max := max
  le_refl a := Nat.le_refl a.micros
  le_trans _ _ _ := Nat.le_trans
  lt_iff_le_not_ge _ _ := Nat.lt_iff_le_and_not_ge
  le_antisymm _ _ hab hba := ext (Nat.le_antisymm hab hba)
  le_total a b := Nat.le_total a.micros b.micros
  toDecidableLE := inferInstance
  toDecidableEq := inferInstance
  toDecidableLT := inferInstance
  max_def _ _ := rfl

theorem zero_le (t : Instant) : zero ≤ t := Nat.zero_le t.micros

end MoteBench.Instant
