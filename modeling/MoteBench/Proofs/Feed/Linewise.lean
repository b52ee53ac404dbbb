import MoteBench.Feed
import MoteBench.Proofs.Text.Field

/-!
A feed is read line by line. Which lines a text has is said here without the stretches that it is cut
into, and which of them count without trimming. The messages of a feed are those of the lines that
count, in their order; if one of these cannot be read, the failure names the first such line by its
number among all lines. So the lines in front of a feed only push its numbers up.
-/
namespace MoteBench

namespace Text

/-- The text has these lines. -/
inductive Divided : List Char → List (List Char) → Prop
  | nil : Divided [] []
  | last {line : List Char} (hline : '\n' ∉ line) (hne : line ≠ []) : Divided line [line]
  | cons {line rest : List Char} {lines : List (List Char)} (hline : '\n' ∉ line)
      (hrest : Divided rest lines) : Divided (line ++ '\n' :: rest) (dropReturn line :: lines)

theorem lines_eq_singleton {line : List Char} (hline : '\n' ∉ line) (hne : line ≠ []) :
    lines line = [line] := by
  have whole : stretches line = [line] := by
    clear hne
    induction line with
    | nil => rfl
    | cons c cs ih =>
      have hc : c ≠ '\n' := fun heq => hline (heq ▸ List.mem_cons_self)
      simp [stretches, hc, ih fun hmem => hline (List.mem_cons_of_mem _ hmem)]
  rw [lines, whole, linesOfStretches, if_neg hne]

theorem divided_lines (cs : List Char) : Divided cs (lines cs) := by
  by_cases hmem : '\n' ∈ cs
  · obtain ⟨line, rest, rfl, hline⟩ := List.eq_append_cons_of_mem hmem
    rw [lines_append_newline hline]
    exact .cons hline (divided_lines rest)
  · rcases eq_or_ne cs [] with rfl | hne
    · exact .nil
    · rw [lines_eq_singleton hmem hne]
      exact .last hmem hne
termination_by cs.length

/-- A text has no other lines than those that it is cut into. -/
theorem Divided.eq_lines {cs : List Char} {ls : List (List Char)} (h : Divided cs ls) :
    ls = lines cs := by
  induction h with
  | nil => rfl
  | last hline hne => exact (lines_eq_singleton hline hne).symm
  | cons hline _ ih => rw [lines_append_newline hline, ih]

/-- No line is left open at the end of the text. -/
def Ended (cs : List Char) : Prop := cs = [] ∨ cs.getLast? = some '\n'

theorem Divided.append {cs ds : List Char} {ls ms : List (List Char)} (h : Divided cs ls)
    (hend : Ended cs) (hd : Divided ds ms) :
    Divided (cs ++ ds) (ls ++ ms) := by
  induction h with
  | nil => exact hd
  | last hline hne =>
    rcases hend with rfl | hlast
    · exact absurd rfl hne
    · exact absurd (List.mem_of_getLast? hlast) hline
  | @cons line rest lines hline _ ih =>
    have hrest : Ended rest := by
      rcases eq_or_ne rest [] with hnil | hne
      · exact .inl hnil
      · rcases hend with hnil | hlast
        · simp at hnil
        · right
          rwa [List.getLast?_append_of_ne_nil _ (List.cons_ne_nil _ _),
            List.getLast?_cons_of_ne_nil hne] at hlast
    rw [List.append_assoc, List.cons_append, List.cons_append]
    exact .cons hline (ih hrest)

theorem trim_eq_nil_iff {cs : List Char} : trim cs = [] ↔ ∀ c ∈ cs, isBlank c = true := by
  constructor
  · intro htrim
    obtain ⟨front, back, rfl, hfront, hback⟩ := (trim_eq_iff.mp htrim).around
    intro c hc
    rw [List.append_nil] at hc
    exact (List.mem_append.mp hc).elim (hfront c) (hback c)
  · intro hblank
    exact trim_eq_iff.mpr ⟨⟨cs, [], by simp, hblank, by simp⟩, by simp, by simp⟩

end Text

namespace Feed

/-- The line counts: it has something else than blanks on it, and no `#` in front. -/
def Counts (line : List Char) : Prop :=
  (∃ c ∈ line, Text.isBlank c = false) ∧ line.head? ≠ some '#'

instance : DecidablePred Counts := fun _ => inferInstanceAs (Decidable (_ ∧ _))

theorem skipped_iff {line : List Char} : skipped line = true ↔ ¬ Counts line := by
  rw [skipped, Bool.or_eq_true, List.isEmpty_iff, Text.trim_eq_nil_iff, decide_eq_true_iff, Counts,
    not_and_or, not_not]
  simp

variable {number : Nat} {line : List Char} {rest lines : List (List Char)}

/-! What each kind of line does to the lines after it. -/

theorem parseLines_of_not_counts (h : ¬ Counts line) :
    parseLines number (line :: rest) = parseLines (number + 1) rest := by
  rw [parseLines, if_pos (skipped_iff.mpr h)]

theorem parseLines_of_error {cause : Message.LineError} (h : Counts line)
    (he : Message.parse (.ofList line) = .error cause) :
    parseLines number (line :: rest) = .error (.badLine number cause) := by
  rw [parseLines, if_neg (mt skipped_iff.mp (not_not.mpr h)), he]

theorem parseLines_of_ok {m : Message} (h : Counts line)
    (hm : Message.parse (.ofList line) = .ok m) :
    parseLines number (line :: rest) = (parseLines (number + 1) rest).map (m :: ·) := by
  rw [parseLines, if_neg (mt skipped_iff.mp (not_not.mpr h)), hm]

theorem map_cons_eq_ok_iff {read : Except Failure (List Message)} {m : Message}
    {ms : List Message} : read.map (m :: ·) = .ok ms ↔ ∃ ms', ms = m :: ms' ∧ read = .ok ms' := by
  cases read with
  | error failure => simp [Except.map]
  | ok ms' => simp [Except.map, eq_comm]

theorem map_eq_error_iff {read : Except Failure (List Message)} {f : List Message → List Message}
    {failure : Failure} : read.map f = .error failure ↔ read = .error failure := by
  cases read with
  | error found => exact .rfl
  | ok ms' => simp [Except.map]

/-- The messages are those of the lines that count, each of which can be read. -/
theorem parseLines_ok_iff {ms : List Message} :
    parseLines number lines = .ok ms ↔
      (lines.filter (Counts ·)).map (fun line => Message.parse (.ofList line)) = ms.map .ok := by
  induction lines generalizing number ms with
  | nil => simp [parseLines, eq_comm]
  | cons line rest ih =>
    by_cases hcounts : Counts line
    · rw [List.filter_cons_of_pos (by simpa using hcounts), List.map_cons]
      cases hread : Message.parse (.ofList line) with
      | error cause =>
        rw [parseLines_of_error hcounts hread]
        cases ms <;> simp
      | ok m =>
        rw [parseLines_of_ok hcounts hread, map_cons_eq_ok_iff]
        cases ms with
        | nil => simp
        | cons m' ms =>
          constructor
          · rintro ⟨ms', heq, hrest⟩
            obtain ⟨rfl, rfl⟩ := List.cons.inj heq
            rw [ih.mp hrest, List.map_cons]
          · intro h
            obtain ⟨hm, hms⟩ := List.cons.inj h
            obtain rfl := Except.ok.inj hm
            exact ⟨ms, rfl, ih.mpr hms⟩
    · rw [parseLines_of_not_counts hcounts, ih, List.filter_cons_of_neg (by simpa using hcounts)]

/-- The first line that counts and cannot be read is `line`; `before` and `after` are the others. -/
structure FirstBad (lines before : List (List Char)) (line : List Char) (after : List (List Char))
    (cause : Message.LineError) : Prop where
  split : lines = before ++ line :: after
  readable : ∀ l ∈ before, Counts l → ∃ m, Message.parse (.ofList l) = .ok m
  counts : Counts line
  unread : Message.parse (.ofList line) = .error cause

variable {before after : List (List Char)} {cause : Message.LineError}

theorem FirstBad.append (h : FirstBad lines before line after cause) (more : List (List Char)) :
    FirstBad (lines ++ more) before line (after ++ more) cause where
  split := by rw [h.split, List.append_assoc, List.cons_append]
  readable := h.readable
  counts := h.counts
  unread := h.unread

theorem FirstBad.behind (h : FirstBad lines before line after cause) (front : List (List Char))
    (hfront : ∀ l ∈ front, Counts l → ∃ m, Message.parse (.ofList l) = .ok m) :
    FirstBad (front ++ lines) (front ++ before) line after cause where
  split := by rw [h.split, List.append_assoc]
  readable := fun l hl => (List.mem_append.mp hl).elim (hfront l) (h.readable l)
  counts := h.counts
  unread := h.unread

theorem FirstBad.fails (h : FirstBad lines before line after cause) (number : Nat) :
    parseLines number lines = .error (.badLine (before.length + number) cause) := by
  obtain ⟨rfl, hreadable, hcounts, hunread⟩ := h
  induction before generalizing number with
  | nil =>
    rw [List.nil_append, parseLines_of_error hcounts hunread, List.length_nil, Nat.zero_add]
  | cons l before ih =>
    rw [List.forall_mem_cons] at hreadable
    have hrest := ih (number + 1) hreadable.2
    rw [List.cons_append, List.length_cons, Nat.add_right_comm]
    by_cases hl : Counts l
    · obtain ⟨m, hm⟩ := hreadable.1 hl
      rw [parseLines_of_ok hl hm, map_eq_error_iff]
      exact hrest
    · rw [parseLines_of_not_counts hl]
      exact hrest

theorem exists_firstBad {failure : Failure} (h : parseLines number lines = .error failure) :
    ∃ before line after cause, FirstBad lines before line after cause := by
  induction lines generalizing number with
  | nil => cases h
  | cons l rest ih =>
    have behind (hl : Counts l → ∃ m, Message.parse (.ofList l) = .ok m)
        (hrest : parseLines (number + 1) rest = .error failure) :
        ∃ before line after cause, FirstBad (l :: rest) before line after cause := by
      obtain ⟨before, line, after, cause, hfirst⟩ := ih hrest
      exact ⟨_, _, _, _, hfirst.behind [l] (by simpa using hl)⟩
    by_cases hcounts : Counts l
    · cases hread : Message.parse (.ofList l) with
      | error cause => exact ⟨[], l, rest, cause, rfl, by simp, hcounts, hread⟩
      | ok m =>
        rw [parseLines_of_ok hcounts hread, map_eq_error_iff] at h
        exact behind (fun _ => ⟨m, hread⟩) h
    · rw [parseLines_of_not_counts hcounts] at h
      exact behind (fun hl => absurd hl hcounts) h

/-- A failure names the first line that counts and cannot be read. -/
theorem parseLines_error_iff {failure : Failure} :
    parseLines number lines = .error failure ↔ ∃ before line after cause,
      FirstBad lines before line after cause ∧ failure = .badLine (before.length + number) cause := by
  constructor
  · intro h
    obtain ⟨before, line, after, cause, hfirst⟩ := exists_firstBad h
    have hfailure := h.symm.trans (hfirst.fails number)
    exact ⟨before, line, after, cause, hfirst, Except.error.inj hfailure⟩
  · rintro ⟨before, line, after, cause, hfirst, rfl⟩
    exact hfirst.fails number

/-- If the messages of some lines can be read, then so can each line that counts. -/
theorem read_of_parseLines {ms : List Message} (h : parseLines number lines = .ok ms) :
    ∀ l ∈ lines, Counts l → ∃ m, Message.parse (.ofList l) = .ok m := by
  intro l hl hcounts
  have hmem : Message.parse (.ofList l) ∈
      (lines.filter (Counts ·)).map (fun line => Message.parse (.ofList line)) :=
    List.mem_map_of_mem (List.mem_filter.mpr ⟨hl, by simpa using hcounts⟩)
  rw [parseLines_ok_iff.mp h] at hmem
  obtain ⟨m, -, hm⟩ := List.mem_map.mp hmem
  exact ⟨m, hm.symm⟩

/-- What a text with these lines is read as. -/
structure Linewise (text : String) (lines : List (List Char)) : Prop where
  divided : Text.Divided text.toList lines
  ok_iff : ∀ ms, parse text = .ok ms ↔
    (lines.filter (Counts ·)).map (fun line => Message.parse (.ofList line)) = ms.map .ok
  /-- Every line has its number, from 1 on, also one that does not count. -/
  error_iff : ∀ failure, parse text = .error failure ↔ ∃ before line after cause,
    FirstBad lines before line after cause ∧ failure = .badLine (before.length + 1) cause
  append_ok : Text.Ended text.toList → ∀ more ms ms', parse text = .ok ms →
    parse more = .ok ms' → parse (text ++ more) = .ok (ms ++ ms')
  append_bad : Text.Ended text.toList → ∀ more failure, parse text = .error failure →
    parse (text ++ more) = .error failure
  /-- The lines of a text behind it are numbered on. -/
  append_ok_bad : Text.Ended text.toList → ∀ more ms number cause, parse text = .ok ms →
    parse more = .error (.badLine number cause) →
      parse (text ++ more) = .error (.badLine (number + lines.length) cause)

/-- A feed is read line by line, and so is a feed that another one is put behind. -/
theorem parse_linewise (text : String) : ∃ lines, Linewise text lines := by
  have hdivided := Text.divided_lines text.toList
  have happend (hend : Text.Ended text.toList) (more : String) :
      parse (text ++ more) = parseLines 1 (Text.lines text.toList ++ Text.lines more.toList) := by
    rw [parse, String.toList_append, ← (hdivided.append hend (Text.divided_lines _)).eq_lines]
  refine ⟨Text.lines text.toList, ?_⟩
  constructor
  case divided => exact hdivided
  case ok_iff => exact fun ms => parseLines_ok_iff
  case error_iff => exact fun failure => parseLines_error_iff
  case append_ok =>
    intro hend more ms ms' hms hms'
    rw [happend hend, parseLines_ok_iff, List.filter_append, List.map_append, List.map_append,
      parseLines_ok_iff.mp hms, parseLines_ok_iff.mp hms']
  case append_bad =>
    intro hend more failure hfailure
    obtain ⟨before, line, after, cause, hfirst, rfl⟩ := parseLines_error_iff.mp hfailure
    rw [happend hend]
    exact (hfirst.append _).fails 1
  case append_ok_bad =>
    intro hend more ms number cause hms hfailure
    obtain ⟨before, line, after, cause', hfirst, heq⟩ := parseLines_error_iff.mp hfailure
    obtain ⟨rfl, rfl⟩ := Failure.badLine.inj heq
    rw [happend hend, (hfirst.behind _ (read_of_parseLines hms)).fails 1, List.length_append,
      Nat.add_comm _ before.length, Nat.add_right_comm]

/-- Two lines that do not count, and one that a carriage return ends. -/
example : parse "# booted at noon\n\n7:1:up\r\n8:1" = .error (.badLine 4 (.malformed "8:1")) := rfl

end Feed

end MoteBench
