/-! What a binary64 pattern stands for, read off its bits. -/
namespace MoteBench.Decimal

/-- A finite double is `significand * 2 ^ exponent`, negated if `negative`. -/
inductive Binary64 where
  | nan
  | infinite (negative : Bool)
  | finite (negative : Bool) (significand : Nat) (exponent : Int)
  deriving DecidableEq, Repr

namespace Binary64

def ofBits (bits : UInt64) : Binary64 :=
  let n := bits.toNat
  let negative := n >>> 63 == 1
  let field : Nat := (n >>> 52) % 0x800
  let fraction : Nat := n % (1 <<< 52)
  if field = 0x7ff then
    if fraction = 0 then .infinite negative else .nan
  else if field = 0 then .finite negative fraction (-1074)
  else .finite negative ((1 <<< 52) + fraction) ((field : Int) - 1075)

def ofFloat (x : Float) : Binary64 := ofBits x.toBits

/-- One, minus two, and the least positive double. -/
example : ofBits 0x3ff0000000000000 = .finite false (1 <<< 52) (-52) ∧
    ofBits 0xc000000000000000 = .finite true (1 <<< 52) (-51) ∧
    ofBits 1 = .finite false 1 (-1074) := by decide

end Binary64

end MoteBench.Decimal
