import MoteBench.Text.Blank
import MoteBench.Text.Numeral
import MoteBench.Time

/-!
Messages delivered by a simulation, and the log line `time:source:text` that carries one. Reading
is lenient about blanks around the first two parts and keeps the text as it stands.
-/
namespace MoteBench

abbrev MoteId := UInt32

/-- A mote prints its messages; the script's own messages pace a plan. -/
inductive Source where
  | mote (id : MoteId)
  | script
  deriving DecidableEq, Repr

def Source.render : Source → String
  | .mote id => toString id.toNat
  | .script => "script"

structure Message where
  time : Instant
  source : Source
  text : String
  deriving DecidableEq, Repr

namespace Message

def render (m : Message) : String :=
  m.time.render ++ ":" ++ m.source.render ++ ":" ++ m.text

/-- Why a line is no message. -/
inductive LineError where
  | malformed (line : String)
  | badTime (field : String)
  | badSource (field : String)
  deriving DecidableEq, Repr

def LineError.message : LineError → String
  | .malformed line => s!"malformed log line (expected time:id:text): {line}"
  | .badTime field => s!"invalid timestamp '{field}'"
  | .badSource field => s!"invalid node id '{field}'"

/-- What stands before the first colon and after it. -/
def cutColon? : List Char → Option (List Char × List Char)
  | [] => none
  | c :: cs => if c = ':' then some ([], cs) else (cutColon? cs).map fun p => (c :: p.1, p.2)

theorem cutColon?_append {front : List Char} (h : ':' ∉ front) (back : List Char) :
    cutColon? (front ++ ':' :: back) = some (front, back) := by
  induction front with
  | nil => simp [cutColon?]
  | cons c cs ih =>
    have hc : c ≠ ':' := fun e => h (by simp [e])
    simp [cutColon?, hc, ih fun hm => h (by simp [hm])]

theorem eq_append_of_cutColon? {cs front back : List Char} (h : cutColon? cs = some (front, back)) :
    cs = front ++ ':' :: back ∧ ':' ∉ front := by
  induction cs generalizing front with
  | nil => simp [cutColon?] at h
  | cons c cs ih =>
    unfold cutColon? at h
    split at h
    · simp_all
    · obtain ⟨p, hp, heq⟩ := Option.map_eq_some_iff.1 h
      obtain ⟨rfl, rfl⟩ := Prod.mk.inj heq
      obtain ⟨hcs, hfree⟩ := ih hp
      exact ⟨by simp [← hcs], by simp_all [eq_comm]⟩

def readInstant? (field : List Char) : Option Instant :=
  (Text.readNumeral? UInt64.size (Text.trim field)).map .ofMicros

/-- The word `script`, or the number of a mote; expects no blanks around it. -/
def readSource? (field : List Char) : Option Source :=
  if field = "script".toList then some .script
  else (Text.readNumeral? UInt32.size field).map fun n => .mote (.ofNat n)

/-- The time is judged before the source, and a line that lacks a colon before either. -/
def parse (line : String) : Except LineError Message :=
  match cutColon? line.toList with
  | none => .error (.malformed line)
  | some (first, rest) =>
    match cutColon? rest with
    | none => .error (.malformed line)
    | some (second, text) =>
      match readInstant? first with
      | none => .error (.badTime (.ofList first))
      | some time =>
        let field := Text.trim second
        match readSource? field with
        | none => .error (.badSource (.ofList field))
        | some source => .ok ⟨time, source, .ofList text⟩

end Message

end MoteBench
