import MoteBench.Proofs.World.Deadline
import MoteBench.Proofs.World.Generated

/-!
The clock of a world stands at the time of the last delivery. A timeout that was armed again moves
the clock when it is passed over, but it was armed for no later than the one that counts: what is
delivered after it is due no earlier, and if there is nothing left, then the clock is past it.
-/
namespace MoteBench

open Memory Agenda

def Delivery.time : Delivery → Instant
  | .message m => m.time
  | .timeout time => time

/-- A timeout that is due then can still be pending when the clock is at `now`. -/
def TimeoutState.Covers (now : Instant) : TimeoutState → Instant → Prop
  | .disarmed, _ => False
  | .armed deadline, due => due ≤ deadline
  | .fired, due => due ≤ now

theorem TimeoutState.Covers.mono {now now' due : Instant} {timeout : TimeoutState}
    (h : timeout.Covers now due) (hle : now ≤ now') : timeout.Covers now' due := by
  cases timeout with
  | disarmed => exact h
  | armed deadline => exact h
  | fired => exact le_trans h hle

namespace World

def Response.time? : Response → Option Instant
  | .delivery d? => d?.map (·.time)
  | _ => none

theorem time?_eq_none {response : Response} (h : ∀ d, response ≠ .delivery (some d)) :
    response.time? = none := by
  rcases response with _ | cause | _ | d
  · rfl
  · rfl
  · rfl
  · exact absurd rfl (h d)

/-- The times of all that is delivered in the course of requests. -/
def deliveryTimes (w : World) (requests : List Request) : List Instant :=
  (w.serveAll requests).1.filterMap Response.time?

variable {w w' : World}

/-! What the next delivery does to the clock. -/

theorem now_le_next (w : World) : w.now ≤ w.next.2.now := by
  refine next_induction (P := fun w r => w.now ≤ r.2.now) ?empty ?message ?timeout ?passed w
  case empty => exact fun w hl => le_rfl
  case message => exact fun w i b source text hi hp => le_max_left _ _
  case timeout => exact fun w i b hi hp harmed => le_max_left _ _
  case passed => exact fun w i b hi hp hother ih => le_trans (le_max_left _ _) ih

theorem now_next_of_some {d : Delivery} (h : w.next.1 = some d) : w.next.2.now = d.time := by
  refine next_induction (P := fun _ r => ∀ d, r.1 = some d → r.2.now = d.time)
    ?empty ?message ?timeout ?passed w d h
  case empty => exact fun w hl d h => by cases h
  case message =>
    intro w i b source text hi hp d h
    obtain rfl := Option.some.inj h
    rfl
  case timeout =>
    intro w i b hi hp harmed d h
    obtain rfl := Option.some.inj h
    rfl
  case passed => exact fun w i b hi hp hother ih => ih

/-- Timeouts that are not due after the clock do not move it when they are passed over. -/
theorem now_next_of_none (h : w.next.1 = none)
    (hpast : ∀ i ∈ w.agenda.toList, i.payload = .timeout → i.due ≤ w.now) :
    w.next.2.now = w.now := by
  refine next_induction (P := fun w r => r.1 = none →
      (∀ i ∈ w.agenda.toList, i.payload = .timeout → i.due ≤ w.now) → r.2.now = w.now)
    ?empty ?message ?timeout ?passed w h hpast
  case empty => exact fun w hl _ _ => rfl
  case message => exact fun w i b source text hi hp h => by cases h
  case timeout => exact fun w i b hi hp harmed h => by cases h
  case passed =>
    intro w i b hi hp hother ih h hpast
    rw [hi, List.forall_mem_cons] at hpast
    have hnow : (w.took i b).now = w.now := max_eq_left (hpast.1 hp)
    exact (ih h (hnow.symm ▸ hpast.2)).trans hnow

/-! Which timeouts can be on the agenda. -/

/-- No timeout on the agenda is due after the one that counts. -/
def Covered (w : World) : Prop :=
  ∀ i ∈ w.agenda.toList, i.payload = .timeout → w.timeout.Covers w.now i.due

theorem Covered.put (h : w.Covered) (due : Instant) (source : Source) (text : String) :
    (w.put due (.message source text)).Covered := by
  intro i hi hp
  rcases mem_toList_push.mp hi with hi | rfl
  · exact h i hi hp
  · cases hp

theorem Covered.schedule (h : w.Covered) (m : Message) :
    (w.respond (w.schedule m)).2.Covered := by
  rcases w.respond_schedule m with heq | heq <;> rw [heq]
  · exact h
  · exact h.put _ _ _

/-- The timeout is only ever armed for behind those that are on the agenda. -/
theorem Covered.armTimeout (h : w.Covered) {after : Span} (hok : w.armTimeout after = .ok w') :
    w'.Covered := by
  obtain ⟨hnotFired, hlater⟩ := accepted_of_armTimeout hok
  obtain rfl := armTimeout_eq_ok hok
  intro i hi hp
  rcases mem_toList_push.mp hi with hi | rfl
  · have hcovers := h i hi hp
    cases ht : w.timeout with
    | disarmed =>
      rw [ht] at hcovers
      exact hcovers.elim
    | armed deadline =>
      rw [ht] at hcovers
      exact le_trans hcovers (hlater deadline ht)
    | fired => exact absurd ht hnotFired
  · exact le_rfl

/-- When the timeout fires, the clock is at the deadline, and behind all that was armed before. -/
theorem Covered.next (h : w.Covered) (htimely : w.Timely) : w.next.2.Covered := by
  obtain ⟨-, passed, -, heq⟩ := htimely.next_eq_upcoming
  intro i hi hp
  have hmem : i ∈ w.agenda.toList := by
    rw [heq]
    exact List.mem_append_right _ (List.mem_append_right _ hi)
  have hcovers := h i hmem hp
  rcases htimely.timeout_next with ⟨-, hsame⟩ | ⟨deadline, harmed, -, hfired, hnow⟩
  · rw [hsame]
    exact hcovers.mono w.now_le_next
  · rw [harmed] at hcovers
    rw [hfired, hnow]
    exact hcovers

theorem Covered.serve (h : w.Covered) (htimely : w.Timely) (q : Request) :
    (w.serve q).2.Covered := by
  cases q with
  | addMote mote =>
    rw [World.serve]
    rcases w.respond_addMote mote with heq | heq <;> rw [heq] <;> exact h
  | schedule m => exact h.schedule m
  | print time id text => exact h.schedule ⟨time, .mote id, text⟩
  | armTimeout after =>
    rw [World.serve]
    cases ha : w.armTimeout after with
    | error cause => exact h
    | ok w' => exact h.armTimeout ha
  | generate delay payload => exact h.put _ .script payload
  | next => exact h.next htimely
  | broadcast mode bindings => exact h

/-- A world whose clock does not run ahead of what it delivers. -/
structure Steady (w : World) : Prop where
  timely : w.Timely
  watched : ∃ armed expired, w.Watched armed expired
  covered : w.Covered

theorem steady_withMotes (seed : UInt64) (count : Nat) : (withMotes seed count).Steady where
  timely := timely_withMotes seed count
  watched := ⟨[], [], .disarmed rfl⟩
  covered := by
    intro i hi
    simp [withMotes, toList, Heap.items] at hi

theorem Steady.serve (h : w.Steady) (q : Request) : (w.serve q).2.Steady where
  timely := h.timely.serve q
  watched := by
    obtain ⟨armed, expired, hwatched⟩ := h.watched
    exact ⟨_, _, hwatched.serve h.timely q⟩
  covered := h.covered.serve h.timely q

theorem Steady.serveAll (h : w.Steady) (requests : List Request) :
    (w.serveAll requests).2.Steady := by
  induction requests generalizing w with
  | nil => exact h
  | cons q requests ih => exact ih (h.serve q)

/-- If there is nothing to deliver the clock stays, also if timeouts are passed over. -/
theorem Steady.now_next_of_none (h : w.Steady) (hnone : w.next.1 = none) :
    w.next.2.now = w.now := by
  apply World.now_next_of_none hnone
  intro i hi hp
  have hcovers := h.covered i hi hp
  cases ht : w.timeout with
  | disarmed =>
    rw [ht] at hcovers
    exact hcovers.elim
  | fired =>
    rw [ht] at hcovers
    exact hcovers
  | armed deadline =>
    -- An armed timeout is still to be delivered.
    obtain ⟨armed, expired, hwatched⟩ := h.watched
    rcases (hwatched.awaits ht).next with ⟨m, hm, -⟩ | ⟨time, htime⟩
    · cases hnone.symm.trans hm
    · cases hnone.symm.trans htime

/-! The clock over a history. -/

/-- Only to take a delivery moves the clock. -/
theorem now_serve_of_ne_next (w : World) {q : Request} (hq : q ≠ .next) :
    (w.serve q).2.now = w.now := by
  have hschedule (m : Message) : (w.respond (w.schedule m)).2.now = w.now := by
    rcases w.respond_schedule m with heq | heq <;> rw [heq]
    rfl
  cases q with
  | addMote mote =>
    rw [World.serve]
    rcases w.respond_addMote mote with heq | heq <;> rw [heq]
  | schedule m => exact hschedule m
  | print time id text => exact hschedule ⟨time, .mote id, text⟩
  | armTimeout after =>
    rw [World.serve]
    rcases w.respond_armTimeout after with heq | heq <;> rw [heq]
    rfl
  | generate delay payload => rfl
  | next => exact absurd rfl hq
  | broadcast mode bindings => rfl

theorem now_le_serveAll (w : World) (requests : List Request) :
    w.now ≤ (w.serveAll requests).2.now := by
  induction requests generalizing w with
  | nil => exact le_rfl
  | cons q requests ih =>
    refine le_trans ?_ (ih (w.serve q).2)
    by_cases hq : q = .next
    · rw [hq]
      exact w.now_le_next
    · exact (w.now_serve_of_ne_next hq).ge

theorem Steady.now_serve (h : w.Steady) (q : Request) :
    (w.serve q).2.now = (w.serve q).1.time?.getD w.now := by
  by_cases hq : q = .next
  · subst hq
    have htime : (w.serve .next).1.time? = w.next.1.map (·.time) := rfl
    rw [htime]
    cases hd : w.next.1 with
    | none => exact h.now_next_of_none hd
    | some d => exact now_next_of_some hd
  · rw [time?_eq_none fun d hd => hq (eq_next_of_delivery hd), w.now_serve_of_ne_next hq]
    rfl

/-- The clock stands at the time of the last delivery, or where it stood if there was none. -/
theorem Steady.now_serveAll (h : w.Steady) (requests : List Request) :
    (w.serveAll requests).2.now = (w.deliveryTimes requests).getLast?.getD w.now := by
  induction requests generalizing w with
  | nil => rfl
  | cons q requests ih =>
    have htimes : w.deliveryTimes (q :: requests) =
        (w.serve q).1.time?.toList ++ (w.serve q).2.deliveryTimes requests := by
      simp only [deliveryTimes, responses_cons, List.filterMap_cons]
      cases (w.serve q).1.time? <;> rfl
    have hlater : (w.serveAll (q :: requests)).2.now =
        ((w.serve q).2.deliveryTimes requests).getLast?.getD (w.serve q).2.now := ih (h.serve q)
    rw [hlater, h.now_serve q, htimes, List.getLast?_append]
    cases ((w.serve q).2.deliveryTimes requests).getLast? <;> cases (w.serve q).1.time? <;> rfl

end World

end MoteBench
