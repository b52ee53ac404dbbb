import MoteBench.Proofs.Run.Decision
import MoteBench.Proofs.Run.Walk
import MoteBench.Proofs.World.Clock

/-!
The clock of a world while it is asked for one thing after another, and in a run. The broadcasts of a
run are on record in the order of the clock, none before the run started and none after it ended.
-/
namespace MoteBench

open MoteBench.Random Memory Controller

/-- A wait does not set the clock back. -/
theorem Cursor.now_le_awaitNext (c : Cursor) (w : World) : w.now ≤ (c.awaitNext w).sim.now := by
  have hle := w.now_le_next
  unfold awaitNext
  split
  · exact le_rfl
  · split <;> rename_i hn <;> exact (congrArg (fun r => r.2.now) hn : w.next.2.now = _) ▸ hle

theorem Cursor.now_le_awaitUntil (wanted : Message → Bool) (c : Cursor) (w : World) :
    w.now ≤ (c.awaitUntil wanted w).sim.now := by
  have hnext := c.now_le_awaitNext w
  rcases unwanted_or_wanted wanted c w with ⟨m, hm, hw⟩ | hall
  · have := remaining_awaitNext hm
    rw [awaitUntil_of_unwanted hm hw]
    exact le_trans hnext ((c.awaitNext w).cursor.now_le_awaitUntil wanted (c.awaitNext w).sim)
  · rw [awaitUntil_of_wanted hall]
    exact hnext
termination_by c.remaining

namespace Run

variable {G : Type} {r : Run G World} {start : Instant}

theorem now_le_await (r : Run G World) (c : Cursor) : r.sim.now ≤ (r.await c).sim.now := by
  unfold await
  cases r.controller.wait with
  | any => exact c.now_le_awaitNext r.sim
  | cue text => exact c.now_le_awaitUntil r.controller.wakesOn r.sim

/-- The broadcasts on record were made one after the other, from `start` until now. -/
structure Dated (r : Run G World) (start : Instant) : Prop where
  since : start ≤ r.sim.now
  inOrder : r.broadcasts.toList.Pairwise (·.time ≤ ·.time)
  between : ∀ b ∈ r.broadcasts.toList, start ≤ b.time ∧ b.time ≤ r.sim.now

theorem Dated.later (h : r.Dated start) {s : Run G World} (hbroadcasts : s.broadcasts = r.broadcasts)
    (hnow : r.sim.now ≤ s.sim.now) : s.Dated start where
  since := le_trans h.since hnow
  inOrder := hbroadcasts ▸ h.inOrder
  between := by
    intro b hb
    rw [hbroadcasts] at hb
    exact ⟨(h.between b hb).1, le_trans (h.between b hb).2 hnow⟩

theorem Dated.perform (h : r.Dated start) (a : Action) : (r.perform a).2.Dated start := by
  have hnow := (now_perform r a).ge
  cases a with
  | broadcast bindings =>
    have hrecord : (r.perform (.broadcast bindings)).2.broadcasts.toList =
        r.broadcasts.toList ++ [⟨r.sim.now, bindings⟩] := Array.toList_push
    constructor
    case since => exact h.since
    case inOrder =>
      rw [hrecord]
      refine List.pairwise_append.mpr ⟨h.inOrder, List.pairwise_singleton _ _, fun b hb b' hb' => ?_⟩
      obtain rfl := List.mem_singleton.mp hb'
      exact (h.between b hb).2
    case between =>
      intro b hb
      rw [hrecord] at hb
      rcases List.mem_append.mp hb with hb | hb
      · exact h.between b hb
      · obtain rfl := List.mem_singleton.mp hb
        exact ⟨h.since, le_rfl⟩
  | log severity line => exact h.later rfl hnow
  | armTimeout after => exact h.later rfl hnow
  | generate delay payload => exact h.later rfl hnow
  | finish v => exact h.later rfl hnow

variable [WordSource G]

theorem Dated.step (h : r.Dated start) (e : Event) : (r.step e).2.Dated start := by
  cases hr : r.controller.handle e with
  | error cause =>
    rw [step_of_refused hr]
    exact h
  | ok reaction =>
    rw [step_of_handle hr]
    exact performAll_induction (P := (·.Dated start)) (fun a _ s hs => hs.perform a)
      (r := r.adopt reaction) ⟨h.since, h.inOrder, h.between⟩

theorem Dated.answered (h : r.Dated start) (c : Cursor) (d : Delivery) :
    ((r.waited c).step d.toEvent).2.Dated start :=
  (h.later (s := r.waited c) rfl (r.now_le_await c)).step d.toEvent

/-- At every point of a run the broadcasts so far are dated. -/
theorem Passes.dated {s : Run G World} {c c' : Cursor} (h : r.Passes c s c')
    (hr : r.Dated start) : s.Dated start :=
  h.invariant (P := (·.Dated start)) (fun _ c d hs _ _ => hs.answered c d) hr

end Run

/-- The broadcasts of a report were made one after the other, from `start` to its end. -/
structure Report.Dated (report : Report) (start : Instant) : Prop where
  inOrder : report.broadcasts.Pairwise (·.time ≤ ·.time)
  between : ∀ b ∈ report.broadcasts, start ≤ b.time ∧ b.time ≤ report.endedAt

theorem Run.Dated.report {G : Type} {r : Run G World} {start : Instant} (h : r.Dated start)
    {c : Cursor} {v : Verdict} {report : Report}
    (hreport : (r.close c v : Outcome World World.Refusal).result = .ok report) :
    report.Dated start := by
  obtain rfl := Except.ok.inj hreport
  exact ⟨h.inOrder, h.between⟩

/-- Whatever the controller was told before the run. -/
theorem Controller.dated_run {G : Type} [WordSource G] {c : Controller G} {w : World}
    {cursor : Cursor} {report : Report}
    (h : (c.run w cursor : Outcome World World.Refusal).result = .ok report) :
    report.Dated w.now := by
  have hfresh : ({ controller := c, sim := w } : Run G World).Dated w.now :=
    ⟨le_rfl, .nil, by simp⟩
  have hbegun := hfresh.step (.start w.now)
  rw [run_eq_resume] at h
  rcases Run.resume_eq_ok h with ⟨v, -, heq⟩ | ⟨-, heq⟩
  · exact hbegun.report (heq ▸ h)
  · rw [heq] at h
    obtain ⟨s, c', d, hpasses, hreports, -⟩ := Run.proceed_eq_ok h
    exact ((hpasses.dated hbegun).answered c' d).report hreports.result

namespace World

/-- The clock of the world `w` while it serves `requests`, and in a run after them. -/
structure Clocked (w : World) (requests : List Request) : Prop where
  /-- It stands at the time of the last delivery, and at zero if there was none. -/
  now_eq : (w.serveAll requests).2.now = (w.deliveryTimes requests).getLast?.getD .zero
  never_back : ∀ later, (w.serveAll requests).2.now ≤ (w.serveAll (requests ++ later)).2.now
  /-- Only a delivery moves it, not the request for one if there is none. -/
  still : ∀ q, (∀ d, ((w.serveAll requests).2.serve q).1 ≠ .delivery (some d)) →
    (w.serveAll (requests ++ [q])).2.now = (w.serveAll requests).2.now
  timely : ∀ i ∈ (w.serveAll requests).2.agenda.toList, (w.serveAll requests).2.now ≤ i.due
  runs : ∀ {G : Type} [WordSource G] (c : Controller G) (cursor : Cursor) (report : Report),
    (c.run (w.serveAll requests).2 cursor : Outcome World Refusal).result = .ok report →
      report.Dated (w.serveAll requests).2.now

/-- The clock of a new world goes by its deliveries, whatever is asked of the world. -/
theorem clocked (seed : UInt64) (count : Nat) (requests : List Request) :
    Clocked (withMotes seed count) requests := by
  have hnew := steady_withMotes seed count
  have hsteady := hnew.serveAll requests
  constructor
  case now_eq => exact hnew.now_serveAll requests
  case never_back =>
    intro later
    rw [serveAll_append]
    exact now_le_serveAll _ later
  case still =>
    intro q hnothing
    rw [serveAll_append]
    refine (hsteady.now_serve q).trans ?_
    rw [time?_eq_none hnothing, Option.getD_none]
  case timely => exact hsteady.timely
  case runs => exact fun c cursor report h => c.dated_run h

end World

end MoteBench
