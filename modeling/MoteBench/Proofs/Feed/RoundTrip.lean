import MoteBench.Proofs.Feed.Linewise
import MoteBench.Proofs.Message.Grammar

/-!
Messages written one to a line and read again. A text is cut at its first line feed, and what is left
of it loses a carriage return at its end; the time and the source in front of it are safe from both.
So those texts come back that have nothing to be cut or lost.
-/
namespace MoteBench.Feed

/-- Each message on a line of its own. -/
def render (ms : List Message) : String := .join (ms.map fun m => m.render ++ "\n")

/-- What a line brings back of the text that was written on it. -/
def carried (text : List Char) : List Char := Text.dropReturn (text.takeWhile fun c => c ≠ '\n')

theorem takeWhile_ne_newline {text : List Char} (h : '\n' ∉ text) :
    (text.takeWhile fun c => c ≠ '\n') = text := by
  rw [List.takeWhile_eq_self_iff]
  intro c hc
  have hne : c ≠ '\n' := fun heq => h (heq ▸ hc)
  simpa using hne

theorem carried_eq_self_iff {text : List Char} :
    carried text = text ↔ '\n' ∉ text ∧ text.getLast? ≠ some '\r' := by
  constructor
  · intro h
    let line := text.takeWhile fun c => c ≠ '\n'
    have hdrop : Text.dropReturn line = text := h
    have hle : text.length ≤ line.length := hdrop ▸ Text.length_dropReturn_le line
    have hline : line = text := (List.takeWhile_prefix _).eq_of_length_le hle
    rw [hline] at hdrop
    refine ⟨fun hmem => ?_, Text.dropReturn_eq_self_iff.mp hdrop⟩
    rw [← hline] at hmem
    simpa using List.mem_takeWhile_imp hmem
  · rintro ⟨hfeed, hreturn⟩
    rw [carried, takeWhile_ne_newline hfeed, Text.dropReturn_eq_self_iff]
    exact hreturn

/-- The first line of a text that begins with `front`; what a line feed in `text` cuts off goes to the
lines after it. -/
theorem exists_lines_append {front : List Char} (hfeed : '\n' ∉ front)
    (hreturn : front.getLast? ≠ some '\r') (text rest : List Char) :
    ∃ more, Text.lines (front ++ text ++ '\n' :: rest) = (front ++ carried text) :: more ∧
      ('\n' ∉ text → more = Text.lines rest) := by
  by_cases hmem : '\n' ∈ text
  · obtain ⟨line, back, rfl, hline⟩ := List.eq_append_cons_of_mem hmem
    refine ⟨Text.lines (back ++ '\n' :: rest), ?_, fun hno => absurd hmem hno⟩
    have htake : (line ++ '\n' :: back).takeWhile (fun c => c ≠ '\n') = line := by
      rw [List.takeWhile_append_of_pos fun c hc => by
        have hne : c ≠ '\n' := fun heq => hline (heq ▸ hc)
        simpa using hne]
      simp
    have hfront : '\n' ∉ front ++ line := by simp [hfeed, hline]
    rw [carried, htake, ← Text.dropReturn_append hreturn, ← Text.lines_append_newline hfront]
    simp
  · refine ⟨Text.lines rest, ?_, fun _ => rfl⟩
    have hfront : '\n' ∉ front ++ text := by simp [hfeed, hmem]
    rw [Text.lines_append_newline hfront, Text.dropReturn_append hreturn, carried,
      takeWhile_ne_newline hmem]

/-- A message up to its text. -/
def heading (m : Message) : List Char := (m.time.render ++ ":" ++ m.source.render ++ ":").toList

theorem toList_render_message (m : Message) : m.render.toList = heading m ++ m.text.toList := by
  simp [Message.render, heading]

theorem newline_not_mem_heading (m : Message) : '\n' ∉ heading m := by
  have htime : '\n' ∉ m.time.render.toList := Message.not_mem_render_time (by decide) m.time
  have hsource : '\n' ∉ m.source.render.toList :=
    Message.not_mem_render_source (by decide) (by decide) m.source
  simp [heading, htime, hsource]

theorem getLast?_heading (m : Message) : (heading m).getLast? = some ':' := by
  rw [heading, String.toList_append]
  exact List.getLast?_concat

/-- A message begins with a digit, so that its line is neither blank nor a comment. -/
theorem not_skipped_render (m : Message) : skipped m.render.toList = false := by
  obtain ⟨d, ds, hdigits⟩ : ∃ d ds, Nat.toDigits 10 m.time.micros = d :: ds :=
    List.exists_cons_of_ne_nil Nat.toDigits_ne_nil
  have hdigit : d.isDigit = true := Text.isDigit_of_mem_toDigits (n := m.time.micros) (by simp [hdigits])
  have hrender : ∃ cs, m.render.toList = d :: cs := by
    simp [toList_render_message, heading, Message.toList_render_time, hdigits]
  obtain ⟨cs, hcs⟩ := hrender
  have hhead : d ≠ '#' := by
    rintro rfl
    cases hdigit
  have htrim : Text.trim (d :: cs) ≠ [] := Text.trim_cons_ne_nil (Text.not_blank_of_isDigit hdigit) cs
  simp [skipped, hcs, hhead, htrim]

theorem parseLines_render (number : Nat) (m : Message) (rest : List (List Char)) :
    parseLines number (m.render.toList :: rest) = (parseLines (number + 1) rest).map (m :: ·) := by
  rw [parseLines, not_skipped_render, String.ofList_toList, Message.parse_render]
  rfl

/-- A written message is read as the message with so much of its text as its line carries. -/
theorem exists_parseLines_render (number : Nat) (m : Message) (rest : List Char) :
    ∃ more, parseLines number (Text.lines (m.render.toList ++ '\n' :: rest)) =
        (parseLines (number + 1) more).map ({ m with text := .ofList (carried m.text.toList) } :: ·) ∧
      ('\n' ∉ m.text.toList → more = Text.lines rest) := by
  have hreturn : (heading m).getLast? ≠ some '\r' := by
    rw [getLast?_heading]
    decide
  obtain ⟨more, hlines, hmore⟩ :=
    exists_lines_append (newline_not_mem_heading m) hreturn m.text.toList rest
  refine ⟨more, ?_, hmore⟩
  rw [← parseLines_render, toList_render_message, hlines, toList_render_message, String.toList_ofList]
  rfl

theorem toList_render_cons (m : Message) (ms : List Message) :
    (render (m :: ms)).toList = m.render.toList ++ '\n' :: (render ms).toList := by
  simp [render]

theorem parseLines_eq_ok_iff (number : Nat) (ms : List Message) :
    parseLines number (Text.lines (render ms).toList) = .ok ms ↔
      ∀ m ∈ ms, '\n' ∉ m.text.toList ∧ m.text.toList.getLast? ≠ some '\r' := by
  induction ms generalizing number with
  | nil => simp [render, parseLines]
  | cons m ms ih =>
    obtain ⟨more, hparse, hmore⟩ := exists_parseLines_render number m (render ms).toList
    rw [toList_render_cons, hparse, List.forall_mem_cons, ← carried_eq_self_iff, ← ih (number + 1)]
    -- A text that comes back whole has no line feed, and then the other lines are those of the rest.
    constructor
    · intro h
      obtain ⟨ms', heq, hrest⟩ := map_cons_eq_ok_iff.mp h
      obtain ⟨hm, rfl⟩ := List.cons.inj heq
      have htext : carried m.text.toList = m.text.toList := by
        have h := congrArg (·.text.toList) hm
        simpa using h.symm
      rw [hmore (carried_eq_self_iff.mp htext).1] at hrest
      exact ⟨htext, hrest⟩
    · rintro ⟨htext, hrest⟩
      rw [hmore (carried_eq_self_iff.mp htext).1, hrest, htext, String.ofList_toList]
      rfl

/-- Written messages are read back exactly if their texts have no line feed in them and no carriage
return at their end, and no line of a message is skipped. -/
theorem parse_render_eq_ok_iff (ms : List Message) :
    (parse (render ms) = .ok ms ↔
        ∀ m ∈ ms, '\n' ∉ m.text.toList ∧ m.text.toList.getLast? ≠ some '\r') ∧
      ∀ m : Message, skipped m.render.toList = false :=
  ⟨parseLines_eq_ok_iff 1 ms, not_skipped_render⟩

end MoteBench.Feed
