import Mathlib.Data.List.Sort
import MoteBench.Proofs.World.Request

/-!
A docket is what a world comes to when the agenda is nothing but a list in the order of delivery,
where a new entry goes behind all that are due no later. A world answers every request as its
docket does.
-/
namespace MoteBench

open Memory Agenda World

/-- What stands first in `entries` is delivered first. -/
structure Docket where
  now : Instant := .zero
  motes : List MoteId := []
  entries : List (Instant × Pending) := []
  timeout : TimeoutState := .disarmed
  lastGenerated : Instant := .zero
  deriving DecidableEq

namespace Docket

def put (d : Docket) (due : Instant) (p : Pending) : Docket :=
  { d with entries := d.entries.orderedInsert (·.1 < ·.1) (due, p) }

/-- A message is due at its time, or at once if that has passed. -/
def schedule (d : Docket) (m : Message) : Response × Docket :=
  let accepted := (.done, d.put (max m.time d.now) (.message m.source m.text))
  match m.source with
  | .script => accepted
  | .mote id => if id ∈ d.motes then accepted else (.refused (.unknownMote id), d)

def armTimeout (d : Docket) (after : Span) : Response × Docket :=
  let deadline := d.now + after
  let armed := { d.put deadline .timeout with timeout := .armed deadline }
  match d.timeout with
  | .disarmed => (.done, armed)
  | .armed old =>
    if deadline < old then (.refused (.timeoutEarlier old deadline), d) else (.done, armed)
  | .fired => (.refused .timeoutFired, d)

def generate (d : Docket) (delay : Span) (payload : String) : Docket :=
  let due := max (d.now + delay) d.lastGenerated
  { d.put due (.message .script payload) with lastGenerated := due }

/-- The docket when its clock has come to an entry, and `rest` is what comes after that. -/
def advance (d : Docket) (now : Instant) (rest : List (Instant × Pending)) : Docket :=
  { d with now, entries := rest }

/-- Delivers the first of the entries that is not a timeout armed again for later. -/
def take (d : Docket) : List (Instant × Pending) → Option Delivery × Docket
  | [] => (none, d)
  | (due, .message source text) :: rest =>
    (some (.message ⟨due, source, text⟩), d.advance due rest)
  | (due, .timeout) :: rest =>
    if d.timeout = .armed due then
      (some (.timeout due), { d.advance due rest with timeout := .fired })
    else take (d.advance due rest) rest

def serve (d : Docket) : Request → Response × Docket
  | .addMote mote =>
    if mote.id ∈ d.motes then (.refused (.duplicateMote mote.id), d)
    else (.done, { d with motes := d.motes ++ [mote.id] })
  | .schedule m => d.schedule m
  | .print time id text => d.schedule ⟨time, .mote id, text⟩
  | .armTimeout after => d.armTimeout after
  | .generate delay payload => (.done, d.generate delay payload)
  | .next => (.delivery (d.take d.entries).1, (d.take d.entries).2)
  | .broadcast _ _ => (.done, d)

def serveAll (d : Docket) : List Request → List Response × Docket
  | [] => ([], d)
  | q :: requests =>
    let (response, d) := d.serve q
    let (responses, d) := d.serveAll requests
    (response :: responses, d)

/-- Insertion behind all that are due no later, said by a split of the list. -/
theorem orderedInsert_eq_filter {e : Instant × Pending} {entries : List (Instant × Pending)}
    (h : entries.Pairwise (·.1 ≤ ·.1)) : entries.orderedInsert (·.1 < ·.1) e =
      entries.filter (·.1 ≤ e.1) ++ e :: entries.filter (¬ ·.1 ≤ e.1) := by
  induction entries with
  | nil => rfl
  | cons b entries ih =>
    obtain ⟨hb, hentries⟩ := List.pairwise_cons.mp h
    by_cases hlt : e.1 < b.1
    · have hlater : ∀ x ∈ b :: entries, ¬ x.1 ≤ e.1 := by
        intro x hx
        rcases List.mem_cons.mp hx with rfl | hx
        · exact not_le_of_gt hlt
        · exact not_le_of_gt (lt_of_lt_of_le hlt (hb x hx))
      rw [List.orderedInsert_cons, if_pos hlt, List.filter_eq_nil_iff.mpr (by simpa using hlater),
        List.filter_eq_self.mpr (by simpa using hlater), List.nil_append]
    · have hle := le_of_not_gt hlt
      rw [List.orderedInsert_cons, if_neg hlt, ih hentries]
      simp [hle]

end Docket

namespace World

def docket (w : World) : Docket where
  now := w.now
  motes := w.motes.map (·.id)
  entries := w.agenda.toList.map fun i => (i.due, i.payload)
  timeout := w.timeout
  lastGenerated := w.lastGenerated

theorem pairwise_entries (w : World) : w.docket.entries.Pairwise (·.1 ≤ ·.1) :=
  List.pairwise_map.mpr w.pairwise_due

theorem docket_put (w : World) (due : Instant) (p : Pending) :
    (w.put due p).docket = w.docket.put due p := by
  have hentries : (w.put due p).docket.entries = (w.docket.put due p).entries := by
    simp only [Docket.put]
    rw [Docket.orderedInsert_eq_filter w.pairwise_entries]
    simp only [docket, put, toList_push, List.map_append, List.map_cons, List.filter_map]
    rfl
  exact congrArg (fun entries => { w.docket with entries }) hentries

/-- What a request makes of the docket of a world. -/
def docketAfter (answer : Response × World) : Response × Docket := (answer.1, answer.2.docket)

theorem mem_motes_docket {w : World} {id : MoteId} :
    id ∈ w.docket.motes ↔ (w.mote? id).isSome = true := by
  simp [docket, mote?]

theorem docketAfter_schedule (w : World) (m : Message) :
    docketAfter (w.respond (w.schedule m)) = w.docket.schedule m := by
  have hput := docket_put w (max m.time w.now) (.message m.source m.text)
  unfold Docket.schedule
  cases hk : w.knows m.source with
  | true =>
    have haccepted : docketAfter (w.respond (w.schedule m)) =
        (.done, w.docket.put (max m.time w.now) (.message m.source m.text)) := by
      rw [schedule_of_knows hk, ← hput]
      rfl
    rw [haccepted]
    cases hs : m.source with
    | script => rfl
    | mote id =>
      rw [hs] at hk
      exact (if_pos (mem_motes_docket.mpr hk)).symm
  | false =>
    obtain ⟨id, hs, hrefused⟩ := schedule_of_not_knows hk
    rw [hs] at hk
    rw [hrefused, hs]
    have hunknown : id ∉ w.docket.motes := by
      rw [mem_motes_docket]
      exact ne_true_of_eq_false hk
    exact (if_neg hunknown).symm

theorem docketAfter_armTimeout (w : World) (after : Span) :
    docketAfter (w.respond (w.armTimeout after)) = w.docket.armTimeout after := by
  have harmed : { w.put (w.now + after) .timeout with timeout := .armed (w.now + after) }.docket =
      { w.docket.put (w.now + after) .timeout with timeout := .armed (w.now + after) } := by
    rw [← docket_put]
    rfl
  have htimeout : w.docket.timeout = w.timeout := rfl
  unfold Docket.armTimeout armTimeout
  dsimp only
  rw [htimeout]
  cases w.timeout with
  | fired => rfl
  | disarmed => exact congrArg (Prod.mk Response.done) harmed
  | armed old =>
    dsimp only
    split
    · rename_i hearlier
      exact (if_pos hearlier).symm
    · rename_i hlater
      exact (congrArg (Prod.mk Response.done) harmed).trans (if_neg hlater).symm

theorem docketAfter_addMote (w : World) (mote : Mote) :
    docketAfter (w.respond (w.addMote mote)) = w.docket.serve (.addMote mote) := by
  have hmem : mote.id ∈ w.docket.motes ↔ (w.mote? mote.id).isSome = true := mem_motes_docket
  unfold addMote Docket.serve
  split
  · rename_i hknown
    exact (if_pos (hmem.mpr hknown)).symm
  · rename_i hnew
    have hmotes : (w.motes ++ [mote]).map (·.id) = w.docket.motes ++ [mote.id] := by
      simp [docket]
    refine Eq.trans ?_ (if_neg fun hm => hnew (hmem.mp hm)).symm
    simp [docketAfter, respond, docket]

theorem docket_generate (w : World) (delay : Span) (payload : String) :
    (w.generate delay payload).docket = w.docket.generate delay payload := by
  have hput := docket_put w (max (w.now + delay) w.lastGenerated) (.message .script payload)
  exact congrArg (fun d : Docket => { d with
    lastGenerated := max (w.now + delay) w.lastGenerated }) hput

theorem entries_of_cons {w : World} {i : Item Pending} {b : Agenda Pending}
    (hi : w.agenda.toList = i :: b.toList) :
    w.docket.entries = (i.due, i.payload) :: (w.took i b).docket.entries :=
  congrArg (List.map fun j : Item Pending => (j.due, j.payload)) hi

theorem Timely.docket_took {w : World} (h : w.Timely) {i : Item Pending} {b : Agenda Pending}
    (hi : w.agenda.toList = i :: b.toList) :
    (w.took i b).docket = w.docket.advance i.due (w.took i b).docket.entries := by
  rw [← (h.took hi).2]
  rfl

/-- The docket of a timely world delivers the same, at the time at which it is due. -/
theorem docket_next {w : World} (h : w.Timely) :
    (w.next.1, w.next.2.docket) = w.docket.take w.docket.entries := by
  refine next_induction (P := fun w r => w.Timely →
    (r.1, r.2.docket) = w.docket.take w.docket.entries) ?empty ?message ?timeout ?passed w h
  case empty =>
    intro w hl h
    have hentries : w.docket.entries = [] := by simp [docket, hl]
    rw [hentries, Docket.take]
  case message =>
    intro w i b source text hi hp h
    have hdue : max w.now i.due = i.due := (h.took hi).2
    rw [entries_of_cons hi, hp, hdue]
    exact congrArg (Prod.mk _) (h.docket_took hi)
  case timeout =>
    intro w i b hi hp harmed h
    have hdue : max w.now i.due = i.due := (h.took hi).2
    have harmed' : w.docket.timeout = .armed i.due := harmed
    rw [entries_of_cons hi, hp, hdue, Docket.take, if_pos harmed', ← h.docket_took hi]
    rfl
  case passed =>
    intro w i b hi hp hother ih h
    have hother' : ¬ w.docket.timeout = .armed i.due := hother
    rw [entries_of_cons hi, hp, Docket.take, if_neg hother', ← h.docket_took hi]
    exact ih (h.took hi).1

theorem docketAfter_serve {w : World} (h : w.Timely) (q : Request) :
    docketAfter (w.serve q) = w.docket.serve q := by
  cases q with
  | addMote mote => exact docketAfter_addMote w mote
  | schedule m => exact docketAfter_schedule w m
  | print time id text => exact docketAfter_schedule w ⟨time, .mote id, text⟩
  | armTimeout after => exact docketAfter_armTimeout w after
  | generate delay payload =>
    exact congrArg (Prod.mk Response.done) (docket_generate w delay payload)
  | next =>
    rw [Docket.serve, ← docket_next h]
    rfl
  | broadcast mode bindings =>
    have hids := ids_broadcastAll mode bindings w.motes
    exact congrArg (fun motes => (Response.done, { w.docket with motes })) hids

/-- A timely world and its docket answer all requests alike, and stay together. -/
theorem docket_serveAll {w : World} (h : w.Timely) (requests : List Request) :
    ((w.serveAll requests).1, (w.serveAll requests).2.docket) = w.docket.serveAll requests := by
  induction requests generalizing w with
  | nil => rfl
  | cons q requests ih =>
    have hq := docketAfter_serve h q
    have hrest := ih (h.serve q)
    simp only [serveAll, Docket.serveAll, ← hq, docketAfter, ← hrest]

end World

end MoteBench
