/-!
Lines of a text. A line feed ends a line, and so does a carriage return directly before it; the
last line needs no end, and a text that ends with a line feed has no empty line after it.
-/
namespace MoteBench.Text

/-- The stretches between line feeds: one more than there are line feeds. -/
def stretches : List Char → List (List Char)
  | [] => [[]]
  | c :: cs =>
    if c = '\n' then [] :: stretches cs
    else match stretches cs with
      | [] => [[c]]
      | line :: rest => (c :: line) :: rest

/-- Drops one carriage return at the end. -/
def dropReturn (line : List Char) : List Char :=
  if line.getLast? = some '\r' then line.dropLast else line

theorem length_dropReturn_le (line : List Char) : (dropReturn line).length ≤ line.length := by
  unfold dropReturn
  split
  · rw [List.length_dropLast]
    exact Nat.sub_le ..
  · exact Nat.le_refl _

theorem dropReturn_eq_self_iff {line : List Char} :
    dropReturn line = line ↔ line.getLast? ≠ some '\r' := by
  unfold dropReturn
  split
  case isTrue h =>
    have hne : line ≠ [] := by
      rintro rfl
      simp at h
    have hlength : line.dropLast.length < line.length := by
      rw [List.length_dropLast]
      exact Nat.sub_one_lt (mt List.length_eq_zero_iff.1 hne)
    exact ⟨fun heq => absurd (congrArg List.length heq) (Nat.ne_of_lt hlength), fun hne => absurd h hne⟩
  case isFalse h => exact ⟨fun _ => h, fun _ => rfl⟩

/-- Only the last part of a line loses a carriage return. -/
theorem dropReturn_append {front back : List Char} (h : front.getLast? ≠ some '\r') :
    dropReturn (front ++ back) = front ++ dropReturn back := by
  cases back with
  | nil => simpa [dropReturn] using dropReturn_eq_self_iff.2 h
  | cons c cs =>
    have hlast : (front ++ c :: cs).getLast? = (c :: cs).getLast? := by
      simp [List.getLast?_cons]
    unfold dropReturn
    rw [hlast]
    split
    · rw [List.dropLast_append_of_ne_nil (by simp)]
    · rfl

def linesOfStretches : List (List Char) → List (List Char)
  | [] => []
  | [line] => if line = [] then [] else [line]
  | line :: next :: rest => dropReturn line :: linesOfStretches (next :: rest)

def lines (cs : List Char) : List (List Char) := linesOfStretches (stretches cs)

theorem stretches_ne_nil (cs : List Char) : stretches cs ≠ [] := by
  cases cs with
  | nil => simp [stretches]
  | cons c cs =>
    unfold stretches
    split
    · simp
    · split <;> simp

@[simp] theorem lines_nil : lines [] = [] := rfl

/-- A stretch without line feeds is the first line of the text that it begins. -/
theorem lines_append_newline {line : List Char} (h : '\n' ∉ line) (rest : List Char) :
    lines (line ++ '\n' :: rest) = dropReturn line :: lines rest := by
  have cut : stretches (line ++ '\n' :: rest) = line :: stretches rest := by
    induction line with
    | nil => simp [stretches]
    | cons c cs ih =>
      have hc : c ≠ '\n' := fun e => h (by simp [e])
      simp [stretches, hc, ih fun hm => h (by simp [hm])]
  unfold lines
  rw [cut]
  cases hs : stretches rest with
  | nil => exact absurd hs (stretches_ne_nil rest)
  | cons next more => rfl

/-- Line by line, for texts held as strings. -/
def linesOf (s : String) : List String := (lines s.toList).map String.ofList

end MoteBench.Text
