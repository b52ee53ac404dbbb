import MoteBench.Proofs.World.Delivery

/-!
Timeouts on the agenda of a world. There are none before one is armed, and then the agenda is
nothing but the pending messages.
-/
namespace MoteBench

open Memory Agenda World

namespace Docket

/-- There is no timeout on a docket on which none was ever armed. -/
def Untimed (d : Docket) : Prop := d.timeout = .disarmed → ∀ e ∈ d.entries, e.2 ≠ .timeout

theorem mem_entries_put {d : Docket} {due : Instant} {p : Pending} {e : Instant × Pending} :
    e ∈ (d.put due p).entries ↔ e = (due, p) ∨ e ∈ d.entries :=
  List.mem_orderedInsert _

theorem Untimed.put {d : Docket} (h : d.Untimed) (due : Instant) (source : Source) (text : String) :
    (d.put due (.message source text)).Untimed := by
  intro hd e he
  rcases mem_entries_put.mp he with rfl | he
  · exact Pending.noConfusion
  · exact h hd e he

/-- Entries are taken from the front only. -/
theorem suffix_take {d : Docket} {entries : List (Instant × Pending)} (h : d.entries = entries) :
    (d.take entries).2.entries <:+ entries := by
  induction entries generalizing d with
  | nil => simp [take, h]
  | cons e rest ih =>
    obtain ⟨due, p⟩ := e
    cases p with
    | message source text => exact List.suffix_cons _ _
    | timeout =>
      unfold take
      split
      · exact List.suffix_cons _ _
      · exact (ih rfl).trans (List.suffix_cons _ _)

theorem disarmed_of_take {d : Docket} {entries : List (Instant × Pending)}
    (h : (d.take entries).2.timeout = .disarmed) : d.timeout = .disarmed := by
  induction entries generalizing d with
  | nil => exact h
  | cons e rest ih =>
    obtain ⟨due, p⟩ := e
    cases p with
    | message source text => exact h
    | timeout =>
      unfold take at h
      split at h
      · cases h
      · exact ih (d := d.advance due rest) h

theorem Untimed.schedule {d : Docket} (h : d.Untimed) (m : Message) : (d.schedule m).2.Untimed := by
  have hput := h.put (max m.time d.now) m.source m.text
  unfold Docket.schedule
  dsimp only
  split
  · exact hput
  · split
    · exact hput
    · exact h

theorem Untimed.serve {d : Docket} (h : d.Untimed) (q : Request) : (d.serve q).2.Untimed := by
  cases q with
  | addMote mote =>
    rw [Docket.serve]
    split <;> exact h
  | schedule m => exact h.schedule m
  | print time id text => exact h.schedule ⟨time, .mote id, text⟩
  | armTimeout after =>
    have harmed {d' : Docket} {deadline : Instant} (hd' : d'.timeout = .armed deadline) :
        d'.Untimed := by
      intro hd
      cases hd'.symm.trans hd
    rw [Docket.serve, armTimeout]
    dsimp only
    split
    · exact harmed rfl
    · split
      · exact h
      · exact harmed rfl
    · exact h
  | generate delay payload => exact h.put (max (d.now + delay) d.lastGenerated) .script payload
  | next => exact fun hd e he => h (disarmed_of_take hd) e ((suffix_take rfl).subset he)
  | broadcast mode bindings => exact h

end Docket

/-- A message as it stands on a docket. -/
def Message.entry (m : Message) : Instant × Pending := (m.time, .message m.source m.text)

namespace World

theorem Reachable.untimed {w : World} (h : w.Reachable) : w.docket.Untimed := by
  induction h with
  | start seed count _ => simp [Docket.Untimed, docket, withMotes, toList, Heap.items]
  | @serve w hw q ih =>
    have hserve : (w.serve q).2.docket = (w.docket.serve q).2 :=
      congrArg Prod.snd (docketAfter_serve hw.timely q)
    rw [hserve]
    exact ih.serve q

/-- Without timeouts the messages are all there is. -/
theorem entries_eq_map_pending {w : World} (h : ∀ e ∈ w.docket.entries, e.2 ≠ .timeout) :
    w.docket.entries = w.pending.map (·.entry) := by
  simp only [docket, pending] at h ⊢
  generalize w.agenda.toList = items at h ⊢
  induction items with
  | nil => rfl
  | cons i items ih =>
    have hrest := ih fun e he => h e (List.mem_cons_of_mem _ he)
    have hi := h _ List.mem_cons_self
    rw [List.map_cons, List.filterMap_cons, hrest]
    cases hp : i.payload with
    | timeout => exact absurd hp hi
    | message source text => simp [messageOf, hp, Message.entry]

end World

end MoteBench
