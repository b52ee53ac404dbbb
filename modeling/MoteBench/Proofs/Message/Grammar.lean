import MoteBench.Message
import MoteBench.Proofs.Text.Field

/-!
The grammar of log lines, said without reading them: which lines carry which message, and which fault
the others are charged with. Reading a line finds exactly that, and a message is found in the line
that it is written as.
-/
namespace MoteBench.Message

/-- The parts between which the first two colons of a line stand. -/
structure Splits (line first second text : String) : Prop where
  line : line = first ++ ":" ++ second ++ ":" ++ text
  first : ':' ∉ first.toList
  second : ':' ∉ second.toList

/-- The field holds the time `t` in microseconds, perhaps with blanks around it. -/
def IsTime (field : String) (t : Instant) : Prop :=
  ∃ core, Text.Trims field.toList core ∧ Text.Numeral core t.micros

inductive IsSource (word : String) : Source → Prop
  | script : word = "script" → IsSource word .script
  | mote {id : MoteId} : Text.Numeral word.toList id.toNat → IsSource word (.mote id)

/-- What a line says. A line without two colons is judged as a whole, and a line whose time is not in
order by that, whatever stands behind it. -/
inductive Reading (line : String) : Except LineError Message → Prop
  | message {m : Message} {first second word : String} : Splits line first second m.text →
      IsTime first m.time → Text.Trims second.toList word.toList → IsSource word m.source →
      Reading line (.ok m)
  | malformed : line.toList.count ':' < 2 → Reading line (.error (.malformed line))
  | badTime {first second text : String} : Splits line first second text → (∀ t, ¬ IsTime first t) →
      Reading line (.error (.badTime first))
  | badSource {first second text word : String} {t : Instant} : Splits line first second text →
      IsTime first t → Text.Trims second.toList word.toList → (∀ s, ¬ IsSource word s) →
      Reading line (.error (.badSource word))

theorem cutColon?_eq_none_iff {cs : List Char} : cutColon? cs = none ↔ ':' ∉ cs := by
  induction cs with
  | nil => simp [cutColon?]
  | cons c cs ih =>
    by_cases hc : c = ':'
    · simp [cutColon?, hc]
    · simp [cutColon?, hc, ih, Ne.symm hc]

theorem readInstant?_eq_some_iff {field : String} {t : Instant} :
    readInstant? field.toList = some t ↔ IsTime field t := by
  have htrim : ∀ core, Text.Trims field.toList core ↔ core = Text.trim field.toList := fun core => by
    rw [← Text.trim_eq_iff, eq_comm]
  simp only [readInstant?, IsTime, Option.map_eq_some_iff, Text.readNumeral?_eq_some_iff, htrim,
    exists_eq_left]
  constructor
  · rintro ⟨n, ⟨hn, hlt⟩, rfl⟩
    rwa [Instant.micros_ofMicros_of_lt hlt]
  · intro hn
    exact ⟨t.micros, ⟨hn, t.micros_lt⟩, t.ofMicros_micros⟩

theorem readSource?_eq_some_iff {word : String} {s : Source} :
    readSource? word.toList = some s ↔ IsSource word s := by
  by_cases hword : word = "script"
  · -- The word is no numeral, so that it cannot be the number of a mote as well.
    subst hword
    have hnone : ∀ n, ¬ Text.Numeral "script".toList n := fun n hn => by
      have hread := Text.readNumeral?_eq_some_iff.mpr ⟨hn, Nat.lt_succ_self n⟩
      have hnot : ∀ bound, Text.readNumeral? bound "script".toList = none := fun _ => rfl
      rw [hnot] at hread
      cases hread
    constructor
    · intro h
      obtain rfl : Source.script = s := Option.some.inj h
      exact .script rfl
    · rintro (_ | hn)
      · rfl
      · exact absurd hn (hnone _)
  · have hlist : word.toList ≠ "script".toList := fun h => hword (String.toList_inj.mp h)
    simp only [readSource?, if_neg hlist, Option.map_eq_some_iff, Text.readNumeral?_eq_some_iff]
    constructor
    · rintro ⟨n, ⟨hn, hlt⟩, rfl⟩
      exact .mote (by rwa [UInt32.toNat_ofNat_of_lt' hlt])
    · rintro (h | hn)
      · exact absurd h hword
      · exact ⟨_, ⟨hn, UInt32.toNat_lt_size _⟩, by rw [UInt32.ofNat_toNat]⟩

theorem parse_of_count_lt {line : String} (h : line.toList.count ':' < 2) :
    parse line = .error (.malformed line) := by
  unfold parse
  cases hfirst : cutColon? line.toList with
  | none => rfl
  | some parts =>
    obtain ⟨hline, -⟩ := eq_append_of_cutColon? hfirst
    have hrest : ':' ∉ parts.2 := by
      rw [hline, List.count_append, List.count_cons_self] at h
      exact List.count_eq_zero.mp (by omega)
    simp [cutColon?_eq_none_iff.mpr hrest]

theorem exists_splits {line : String} (h : 2 ≤ line.toList.count ':') :
    ∃ first second text, Splits line first second text := by
  cases hfirst : cutColon? line.toList with
  | none =>
    rw [List.count_eq_zero.mpr (cutColon?_eq_none_iff.mp hfirst)] at h
    omega
  | some parts =>
    obtain ⟨first, rest⟩ := parts
    obtain ⟨hline, hno⟩ := eq_append_of_cutColon? hfirst
    cases hsecond : cutColon? rest with
    | none =>
      have hcount := List.count_eq_zero.mpr (cutColon?_eq_none_iff.mp hsecond)
      rw [hline, List.count_append, List.count_cons_self, List.count_eq_zero.mpr hno, hcount] at h
      omega
    | some parts =>
      obtain ⟨second, text⟩ := parts
      obtain ⟨hrest, hno'⟩ := eq_append_of_cutColon? hsecond
      refine ⟨.ofList first, .ofList second, .ofList text, ?_, by simpa using hno, by simpa using hno'⟩
      rw [← String.toList_inj]
      simp [hline, hrest]

/-- A line with two colons is judged by the field before the first, then by the one before the second. -/
theorem parse_of_splits {line first second text : String} (h : Splits line first second text) :
    parse line =
      match readInstant? first.toList, readSource? (Text.trim second.toList) with
      | none, _ => .error (.badTime first)
      | some _, none => .error (.badSource (.ofList (Text.trim second.toList)))
      | some time, some source => .ok ⟨time, source, text⟩ := by
  have hline : line.toList = first.toList ++ ':' :: (second.toList ++ ':' :: text.toList) := by
    simp [h.line]
  simp only [parse, hline, cutColon?_append h.first, cutColon?_append h.second, String.ofList_toList]
  cases readInstant? first.toList <;> cases readSource? (Text.trim second.toList) <;> rfl

theorem parse_of_reading {line : String} {r : Except LineError Message} (h : Reading line r) :
    parse line = r := by
  cases h with
  | malformed hcount => exact parse_of_count_lt hcount
  | message hsplit htime htrim hsource =>
    rw [parse_of_splits hsplit, Text.trim_eq_iff.mpr htrim, readInstant?_eq_some_iff.mpr htime,
      readSource?_eq_some_iff.mpr hsource]
  | badTime hsplit hnone =>
    rename_i first second text
    have hread : readInstant? first.toList = none := Option.eq_none_iff_forall_ne_some.mpr
      fun t ht => hnone t (readInstant?_eq_some_iff.mp ht)
    rw [parse_of_splits hsplit, hread]
  | badSource hsplit htime htrim hnone =>
    rename_i first second text word t
    have hread : readSource? word.toList = none := Option.eq_none_iff_forall_ne_some.mpr
      fun s hs => hnone s (readSource?_eq_some_iff.mp hs)
    rw [parse_of_splits hsplit, Text.trim_eq_iff.mpr htrim, readInstant?_eq_some_iff.mpr htime, hread]
    simp

theorem reading_parse (line : String) : Reading line (parse line) := by
  rcases Nat.lt_or_ge (line.toList.count ':') 2 with hcount | hcount
  · rw [parse_of_count_lt hcount]
    exact .malformed hcount
  · obtain ⟨first, second, text, hsplit⟩ := exists_splits hcount
    let word := String.ofList (Text.trim second.toList)
    have hword : word.toList = Text.trim second.toList := String.toList_ofList
    have htrim : Text.Trims second.toList word.toList := Text.trim_eq_iff.mp hword.symm
    rw [parse_of_splits hsplit, ← hword]
    cases htime : readInstant? first.toList with
    | none =>
      apply Reading.badTime hsplit
      intro t ht
      rw [readInstant?_eq_some_iff.mpr ht] at htime
      cases htime
    | some t =>
      have htime := readInstant?_eq_some_iff.mp htime
      cases hsource : readSource? word.toList with
      | none =>
        rw [String.ofList_toList]
        apply Reading.badSource hsplit htime htrim
        intro s hs
        rw [readSource?_eq_some_iff.mpr hs] at hsource
        cases hsource
      | some s => exact .message hsplit htime htrim (readSource?_eq_some_iff.mp hsource)

theorem parse_eq_iff {line : String} {r : Except LineError Message} :
    parse line = r ↔ Reading line r := by
  constructor
  · rintro rfl
    exact reading_parse line
  · exact parse_of_reading

theorem toList_render_time (t : Instant) : t.render.toList = Nat.toDigits 10 t.micros := by
  simp [Instant.render]

theorem toList_render_mote (id : MoteId) : (Source.mote id).render.toList = Nat.toDigits 10 id.toNat := by
  simp [Source.render]

theorem not_mem_toDigits {c : Char} (hc : c.isDigit = false) (n : Nat) : c ∉ Nat.toDigits 10 n := by
  intro hmem
  rw [Text.isDigit_of_mem_toDigits hmem] at hc
  cases hc

theorem not_mem_render_time {c : Char} (hc : c.isDigit = false) (t : Instant) :
    c ∉ t.render.toList := by
  rw [toList_render_time]
  exact not_mem_toDigits hc t.micros

theorem not_mem_render_source {c : Char} (hc : c.isDigit = false) (hscript : c ∉ "script".toList)
    (s : Source) : c ∉ s.render.toList := by
  cases s with
  | script => exact hscript
  | mote id =>
    rw [toList_render_mote]
    exact not_mem_toDigits hc id.toNat

theorem isTime_render (t : Instant) : IsTime t.render t := by
  refine ⟨Nat.toDigits 10 t.micros, ?_, Text.numeral_toDigits t.micros⟩
  rw [toList_render_time]
  exact Text.trims_toDigits t.micros

theorem isSource_render (s : Source) : IsSource s.render s := by
  cases s with
  | script => exact .script rfl
  | mote id =>
    apply IsSource.mote
    rw [toList_render_mote]
    exact Text.numeral_toDigits id.toNat

theorem trims_render (s : Source) : Text.Trims s.render.toList s.render.toList := by
  cases s with
  | script => exact Text.trim_eq_iff.mp rfl
  | mote id =>
    rw [toList_render_mote]
    exact Text.trims_toDigits id.toNat

/-- No colon stands in a time or a source, so that those of a text come after the first two. -/
theorem splits_render (m : Message) : Splits m.render m.time.render m.source.render m.text where
  line := rfl
  first := not_mem_render_time (by decide) m.time
  second := not_mem_render_source (by decide) (by decide) m.source

theorem parse_render (m : Message) : parse m.render = .ok m :=
  parse_of_reading (.message (splits_render m) (isTime_render m.time) (trims_render m.source)
    (isSource_render m.source))

/-- A line is read as the grammar says, every message stands in the line that it is written as, and
whatever a line was read as is read again from how that is written. -/
theorem parse_grammar (line : String) :
    (∀ r, parse line = r ↔ Reading line r) ∧ (∀ m, parse (render m) = .ok m) ∧
      ((parse line).bind fun m => parse m.render) = parse line := by
  refine ⟨fun r => parse_eq_iff, parse_render, ?_⟩
  cases hline : parse line with
  | error cause => rfl
  | ok m => exact parse_render m

end MoteBench.Message
