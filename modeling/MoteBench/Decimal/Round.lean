/-! Division rounded to the nearest whole number, with the two ways of breaking a tie. -/
namespace MoteBench.Decimal

inductive Tie where
  | away
  | even
  deriving DecidableEq, Repr

/-- The whole number nearest to `num / den`. -/
def roundDiv (tie : Tie) (num den : Nat) : Nat :=
  let q := num / den
  let r := num % den
  if 2 * r < den then q
  else if den < 2 * r then q + 1
  else match tie with
    | .away => q + 1
    | .even => q + q % 2

/-- The result lies within half a unit of the quotient. -/
theorem roundDiv_error (tie : Tie) (num : Nat) {den : Nat} (h : 0 < den) :
    2 * num ≤ (2 * roundDiv tie num den + 1) * den ∧
      2 * (roundDiv tie num den) * den ≤ 2 * num + den := by
  have hq := Nat.div_add_mod num den
  have hr := Nat.mod_lt num h
  have hm : den * (num / den) = num / den * den := Nat.mul_comm ..
  have hp : num / den % 2 = 0 ∨ num / den % 2 = 1 := by omega
  unfold roundDiv
  dsimp only
  split
  · constructor <;> grind
  · split
    · constructor <;> grind
    · cases tie
      · constructor <;> grind
      · rcases hp with hp | hp <;> constructor <;> grind

theorem roundDiv_one (tie : Tie) (n : Nat) : roundDiv tie n 1 = n := by
  simp [roundDiv, Nat.mod_one]

/-- Two halves of odd numbers, one tie broken each way. -/
example : roundDiv .away 5 2 = 3 ∧ roundDiv .even 5 2 = 2 ∧ roundDiv .even 7 2 = 4 := by decide

end MoteBench.Decimal
