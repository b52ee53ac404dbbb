import MoteBench.Decimal.Binary64
import MoteBench.Decimal.Round

/-!
Doubles written with exactly two decimals. The value is first moved to the double nearest to a
whole number of hundredths (a half goes away from zero), then that double is written out exactly
and cut to two places (a half goes to the even neighbour).
-/
namespace MoteBench.Decimal

/-- The nearest whole number; the sign of a zero is kept. -/
def roundWhole (x : Float) : Float :=
  match Binary64.ofFloat x with
  | .finite negative significand (.negSucc k) =>
    let whole := (roundDiv .away significand (1 <<< (k + 1))).toUInt64.toFloat
    if negative then -whole else whole
  | _ => x

/-- Hundredths in `significand * 2 ^ exponent`, a half going to the even neighbour. -/
def hundredths (significand : Nat) : Int → Nat
  | .ofNat k => (significand * 100) <<< k
  | .negSucc k => roundDiv .even (significand * 100) (1 <<< (k + 1))

/-- A count of hundredths, with a point before its last two digits. -/
def pointed (n : Nat) : String :=
  let cents := n % 100
  s!"{n / 100}.{cents / 10}{cents % 10}"

def Binary64.twoPlaces : Binary64 → String
  | .nan => "NaN"
  | .infinite negative => if negative then "-inf" else "inf"
  | .finite negative significand exponent =>
    let digits := pointed (hundredths significand exponent)
    if negative then "-" ++ digits else digits

def twoPlaces (x : Float) : String :=
  (Binary64.ofFloat (roundWhole (x * 100) / 100)).twoPlaces

/-- An eighth is a tie between 0.12 and 0.13. -/
example : (Binary64.finite false 1 (-3)).twoPlaces = "0.12" ∧
    (Binary64.finite false 3 (-3)).twoPlaces = "0.38" ∧
    (Binary64.finite true 0 (-1074)).twoPlaces = "-0.00" := by decide +kernel

end MoteBench.Decimal
