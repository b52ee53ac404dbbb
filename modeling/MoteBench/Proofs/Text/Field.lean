import Mathlib.Data.List.Basic
import Mathlib.Data.List.Induction
import Mathlib.Data.List.TakeWhile
import Mathlib.Data.Nat.Digits.Defs
import MoteBench.Text.Blank
import MoteBench.Text.Numeral

/-!
What can stand in a field of a log line: a word with blanks around it, and a numeral. Trimming and
reading are shown to find exactly that.
-/
namespace MoteBench.Text

/-- The field is `core` with blanks around it, and `core` has none at its ends. -/
structure Trims (field core : List Char) : Prop where
  around : ∃ front back, field = front ++ core ++ back ∧
    (∀ c ∈ front, isBlank c = true) ∧ ∀ c ∈ back, isBlank c = true
  first : ∀ c ∈ core.head?, isBlank c = false
  last : ∀ c ∈ core.getLast?, isBlank c = false

theorem not_blank_of_head?_dropWhile (cs : List Char) :
    ∀ c ∈ (cs.dropWhile isBlank).head?, isBlank c = false := by
  intro c hc
  have hhead := List.head?_dropWhile_not isBlank cs
  rw [Option.mem_def.mp hc] at hhead
  simpa using hhead

/-- What blanks on the left leave over does not begin with one. -/
theorem dropWhile_blanks_append {blanks cs : List Char} (hblanks : ∀ c ∈ blanks, isBlank c = true)
    (hfirst : ∀ c ∈ cs.head?, isBlank c = false) : (blanks ++ cs).dropWhile isBlank = cs := by
  rw [List.dropWhile_append_of_pos hblanks]
  cases cs with
  | nil => rfl
  | cons c cs =>
    have hc : isBlank c = false := hfirst c rfl
    exact List.dropWhile_cons_of_neg (by simp [hc])

theorem trims_trim (field : List Char) : Trims field (trim field) := by
  let inner := field.dropWhile isBlank
  have hfield : field = field.takeWhile isBlank ++ inner := List.takeWhile_append_dropWhile.symm
  have hinner : inner = trim field ++ (inner.reverse.takeWhile isBlank).reverse := by
    have hsplit : inner.reverse.takeWhile isBlank ++ inner.reverse.dropWhile isBlank =
        inner.reverse := List.takeWhile_append_dropWhile
    rw [trim, ← List.reverse_append, hsplit, List.reverse_reverse]
  constructor
  case around =>
    refine ⟨field.takeWhile isBlank, (inner.reverse.takeWhile isBlank).reverse, ?_,
      fun c => List.mem_takeWhile_imp, fun c hc => ?_⟩
    · rw [List.append_assoc, ← hinner]
      exact hfield
    · exact List.mem_takeWhile_imp (List.mem_reverse.mp hc)
  case first =>
    intro c hc
    apply not_blank_of_head?_dropWhile field
    change c ∈ inner.head?
    rw [hinner, List.head?_append]
    simp [Option.mem_def.mp hc]
  case last =>
    intro c hc
    apply not_blank_of_head?_dropWhile inner.reverse
    rwa [trim, List.getLast?_reverse] at hc

theorem trim_eq_iff {field core : List Char} : trim field = core ↔ Trims field core := by
  constructor
  · rintro rfl
    exact trims_trim field
  · rintro ⟨⟨front, back, rfl, hfront, hback⟩, hfirst, hlast⟩
    have hback' : ∀ c ∈ back.reverse, isBlank c = true := fun c hc => hback c (List.mem_reverse.mp hc)
    rcases core.eq_nil_or_concat with rfl | ⟨init, last, rfl⟩
    · have hblank : ∀ c ∈ front ++ back, isBlank c = true := by
        intro c hc
        rcases List.mem_append.mp hc with hc | hc
        · exact hfront c hc
        · exact hback c hc
      have hnone : (front ++ back ++ []).dropWhile isBlank = [] :=
        dropWhile_blanks_append hblank (by simp)
      rw [List.append_nil] at hnone
      rw [List.append_nil, trim, hnone]
      rfl
    · have hleft : (front ++ ((init.concat last) ++ back)).dropWhile isBlank =
          init.concat last ++ back := by
        apply dropWhile_blanks_append hfront
        rwa [List.head?_append_of_ne_nil _ (by simp)]
      have hright : (back.reverse ++ (init.concat last).reverse).dropWhile isBlank =
          (init.concat last).reverse := by
        apply dropWhile_blanks_append hback'
        rwa [List.head?_reverse]
      rw [List.append_assoc, trim, hleft, List.reverse_append, hright, List.reverse_reverse]

theorem trim_cons_ne_nil {c : Char} (h : isBlank c = false) (cs : List Char) : trim (c :: cs) ≠ [] := by
  intro hnil
  obtain ⟨front, back, hcs, hfront, hback⟩ := (trim_eq_iff.mp hnil).around
  have hmem : c ∈ front ++ back := by
    rw [← List.append_nil front, ← hcs]
    exact List.mem_cons_self
  have hblank : isBlank c = true := by
    rcases List.mem_append.mp hmem with hc | hc
    · exact hfront c hc
    · exact hback c hc
  rw [hblank] at h
  cases h

theorem not_blank_of_isDigit {c : Char} (h : c.isDigit = true) : isBlank c = false := by
  have hrange : 48 ≤ c.toNat ∧ c.toNat ≤ 57 := Char.isDigit_iff_toNat.mp h
  simp only [isBlank, inRanges, blankRanges, List.any_cons, List.any_nil, Bool.or_eq_false_iff,
    Bool.and_eq_false_iff, decide_eq_false_iff_not, and_true]
  omega

/-- The number that decimal digits stand for, each by the weight of its place. -/
def decimalValue (digits : List Char) : Nat :=
  Nat.ofDigits 10 (digits.reverse.map fun d => d.toNat - '0'.toNat)

/-- The digits from `0` to `9`, at least one of them and perhaps behind a plus sign. Together they
stand for `n`; zeros in front do not count. -/
structure Numeral (cs : List Char) (n : Nat) : Prop where
  digits : ∃ digits, (cs = digits ∨ cs = '+' :: digits) ∧ digits ≠ [] ∧
    (∀ d ∈ digits, d.isDigit = true) ∧ decimalValue digits = n

theorem ofDigitChars_eq_decimalValue (digits : List Char) :
    Nat.ofDigitChars 10 digits 0 = decimalValue digits := by
  induction digits using List.reverseRecOn with
  | nil => rfl
  | append_singleton front d ih =>
    have hvalue : decimalValue (front ++ [d]) = d.toNat - '0'.toNat + 10 * decimalValue front := by
      simp [decimalValue, Nat.ofDigits_cons]
    rw [Nat.ofDigitChars_append, ih, hvalue, Nat.ofDigitChars_cons]
    exact Nat.add_comm _ _

/-- A numeral of no more than its bound is read as what it stands for, and nothing else is read. -/
theorem readNumeral?_eq_some_iff {bound : Nat} {cs : List Char} {n : Nat} :
    readNumeral? bound cs = some n ↔ Numeral cs n ∧ n < bound := by
  constructor
  · intro h
    have hlt := readNumeral?_lt h
    refine ⟨⟨numeralDigits cs, ?_, ?_⟩, hlt⟩
    · unfold numeralDigits
      split
      · exact .inr rfl
      · exact .inl rfl
    · simp only [readNumeral?] at h
      split at h
      · rename_i hdigits
        split at h
        · obtain rfl := Option.some.inj h
          exact ⟨hdigits.1, List.all_eq_true.mp hdigits.2,
            (ofDigitChars_eq_decimalValue _).symm⟩
        · cases h
      · cases h
  · rintro ⟨⟨digits, hcs, hne, hdigits, rfl⟩, hlt⟩
    have hsame : numeralDigits cs = digits := by
      rcases hcs with rfl | rfl
      · exact numeralDigits_of_digits hdigits
      · rfl
    have hall : digits.all Char.isDigit = true := List.all_eq_true.mpr hdigits
    simp [readNumeral?, hsame, hne, hall, ofDigitChars_eq_decimalValue, hlt]

theorem isDigit_of_mem_toDigits {n : Nat} {c : Char} (h : c ∈ Nat.toDigits 10 n) : c.isDigit = true :=
  Nat.isDigit_of_mem_toDigits (by decide) (by decide) h

theorem numeral_toDigits (n : Nat) : Numeral (Nat.toDigits 10 n) n :=
  (readNumeral?_eq_some_iff.mp (readNumeral?_toDigits (Nat.lt_succ_self n))).1

theorem trims_toDigits (n : Nat) : Trims (Nat.toDigits 10 n) (Nat.toDigits 10 n) := by
  have hdigit : ∀ c ∈ Nat.toDigits 10 n, isBlank c = false := fun c hc =>
    not_blank_of_isDigit (isDigit_of_mem_toDigits hc)
  rw [← trim_eq_iff]
  apply trim_eq_self
  · exact fun c hc => hdigit c (List.mem_of_mem_head? hc)
  · exact fun c hc => hdigit c (List.mem_of_mem_getLast? hc)

end MoteBench.Text
