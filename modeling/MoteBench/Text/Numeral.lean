/-!
Numbers as text: unsigned numerals read with an optional plus sign, the form of unsigned decimals, and
lower-case hexadecimals.
-/
namespace MoteBench.Text

/-- The digits of an unsigned numeral, without the plus sign it may begin with. -/
def numeralDigits : List Char → List Char
  | '+' :: cs => cs
  | cs => cs

/-- A numeral has at least one digit and nothing else, and stands for a number below `bound`. -/
def readNumeral? (bound : Nat) (cs : List Char) : Option Nat :=
  let digits := numeralDigits cs
  if digits ≠ [] ∧ digits.all Char.isDigit then
    let n := Nat.ofDigitChars 10 digits 0
    if n < bound then some n else none
  else none

theorem readNumeral?_lt {bound : Nat} {cs : List Char} {n : Nat} (h : readNumeral? bound cs = some n) :
    n < bound := by
  simp only [readNumeral?] at h
  split at h
  · split at h <;> simp_all
  · simp at h

theorem numeralDigits_of_digits {digits : List Char} (h : ∀ d ∈ digits, d.isDigit = true) :
    numeralDigits digits = digits := by
  unfold numeralDigits
  split
  · exact absurd (h '+' (by simp)) (by decide)
  · rfl

theorem readNumeral?_toDigits {bound n : Nat} (h : n < bound) :
    readNumeral? bound (Nat.toDigits 10 n) = some n := by
  have digit : ∀ c ∈ Nat.toDigits 10 n, c.isDigit = true := fun c hc =>
    Nat.isDigit_of_mem_toDigits (by decide) (by decide) hc
  have nonempty : Nat.toDigits 10 n ≠ [] := Nat.toDigits_ne_nil
  simp [readNumeral?, numeralDigits_of_digits digit, nonempty, List.all_eq_true.2 digit,
    Nat.ofDigitChars_toDigits, h]

/-- The part of a decimal behind its digits: nothing, or an exponent that may be signed. -/
def isExponent : List Char → Bool
  | [] => true
  | e :: cs =>
    let digits := match cs with
      | '+' :: digits => digits
      | '-' :: digits => digits
      | digits => digits
    e.toLower = 'e' && !digits.isEmpty && digits.all Char.isDigit

/-- A decimal without a sign: digits with or without a point among or beside them, perhaps with an
exponent, or in whatever case a word for infinity or for no number. -/
def isDecimal (cs : List Char) : Bool :=
  let (whole, rest) := cs.span Char.isDigit
  let (part, rest) := match rest with
    | '.' :: rest => rest.span Char.isDigit
    | rest => ([], rest)
  (!(whole ++ part).isEmpty && isExponent rest)
    || String.ofList (cs.map Char.toLower) ∈ ["inf", "infinity", "nan"]

example : ["5", "1.5", "5.", ".5e-3", "1E+5", "NaN"].all (isDecimal ·.toList) = true ∧
    ["", ".", "1e", "e5", "+5", "1_0"].any (isDecimal ·.toList) = false := by decide +kernel

def hex (n : Nat) : String := String.ofList (Nat.toDigits 16 n)

end MoteBench.Text
