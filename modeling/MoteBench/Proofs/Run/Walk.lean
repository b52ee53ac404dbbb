import MoteBench.Proofs.Run.Plain

/-!
The points that a run passes between two of its steps. What holds at the start of a run and is kept
by every step holds at all of them, and a report is made at the step behind the last one.
-/
namespace MoteBench

open MoteBench.Random Memory Controller

namespace Cursor

variable {σ ν ε : Type} [Simulator σ ν ε]

/-- A wait ends with the delivery that comes next once all that it drops was taken. -/
theorem exists_next_of_awaitUntil {P : σ → Prop} {wanted : Message → Bool}
    (hskip : ∀ sim m sim', P sim → Simulator.next sim = (some (.message m), sim') →
      wanted m = false → P sim') {c : Cursor} {sim : σ} (h : P sim) {d : Delivery}
    (hd : (c.awaitUntil wanted sim).outcome = .ok d) :
    ∃ s, P s ∧ Simulator.next s = (some d, (c.awaitUntil wanted sim).sim) ∧
      ∀ m, d = .message m → wanted m = true := by
  rcases unwanted_or_wanted wanted c sim with ⟨m, hm, hw⟩ | hall
  · have := remaining_awaitNext hm
    rw [awaitUntil_of_unwanted hm hw] at hd ⊢
    exact exists_next_of_awaitUntil hskip (hskip _ _ _ h (next_of_awaitNext hm) hw) hd
  · rw [awaitUntil_of_wanted hall] at hd ⊢
    exact ⟨sim, h, next_of_awaitNext hd, fun m hm => hall m (hm ▸ hd)⟩
termination_by c.remaining

end Cursor

namespace Run

variable {G σ ν ε : Type} [Simulator σ ν ε]

/-- The run after a wait. -/
def waited (r : Run G σ) (c : Cursor) : Run G σ :=
  { r with sim := (r.await c).sim, trace := r.trace ++ (r.await c).trace }

theorem exists_next_of_await {r : Run G σ} {P : σ → Prop} (hs : r.controller.stage = .running)
    (hskip : ∀ sim m sim', P sim → Simulator.next sim = (some (.message m), sim') →
      r.controller.wakesOn m = false → P sim') (h : P r.sim) {c : Cursor} {d : Delivery}
    (hd : (r.await c).outcome = .ok d) :
    ∃ s, P s ∧ Simulator.next s = (some d, (r.await c).sim) ∧
      ∀ m, d = .message m → r.controller.wakesOn m = true := by
  unfold await at hd ⊢
  cases hw : r.controller.wait with
  | any =>
    rw [hw] at hd
    exact ⟨r.sim, h, Cursor.next_of_awaitNext hd, fun m _ => by simp [wakesOn, hs, hw]⟩
  | cue text =>
    rw [hw] at hd
    exact Cursor.exists_next_of_awaitUntil hskip h hd

variable [Node ν] [WordSource G]

/-- `r.Passes c s c'` says that the run `r` with cursor `c`, which is about to wait, is at some later
wait the run `s` with cursor `c'`. -/
inductive Passes (r : Run G σ) (c : Cursor) : Run G σ → Cursor → Prop where
  | here : Passes r c r c
  | step {s : Run G σ} {c' : Cursor} {d : Delivery} (h : Passes r c s c')
      (hd : (s.await c').outcome = .ok d)
      (hnone : ((s.waited c').step d.toEvent).1 = .ok none) :
      Passes r c ((s.waited c').step d.toEvent).2 (s.await c').cursor

theorem Passes.trans {r s t : Run G σ} {c c' c'' : Cursor} (h : r.Passes c s c')
    (h' : s.Passes c' t c'') : r.Passes c t c'' := by
  induction h' with
  | here => exact h
  | step _ hd hnone ih => exact ih.step hd hnone

/-- What every step keeps holds at every point. -/
theorem Passes.invariant {P : Run G σ → Prop}
    (hstep : ∀ s c d, P s → (s.await c).outcome = .ok d →
      ((s.waited c).step d.toEvent).1 = .ok none → P ((s.waited c).step d.toEvent).2)
    {r s : Run G σ} {c c' : Cursor} (h : r.Passes c s c') (hr : P r) : P s := by
  induction h with
  | here => exact hr
  | step _ hd hnone ih => exact hstep _ _ _ ih hd hnone

/-- The run `r` comes to `report` by an answer to `d`, in a wait that the cursor `c` stands before. -/
structure Reports (r : Run G σ) (c : Cursor) (d : Delivery) (report : Report) : Prop where
  waited : (r.await c).outcome = .ok d
  verdict : ((r.waited c).step d.toEvent).1 = .ok (some report.verdict)
  result : (((r.waited c).step d.toEvent).2.close (r.await c).cursor report.verdict :
    Outcome σ ε).result = .ok report

/-- A run reports at the end of the points it passes. -/
theorem proceed_eq_ok {r : Run G σ} {c : Cursor} {report : Report}
    (h : (r.proceed c).result = .ok report) :
    ∃ s c' d, r.Passes c s c' ∧ s.Reports c' d report ∧
      (r.proceed c).sim = ((s.waited c').step d.toEvent).2.sim := by
  cases ho : (r.await c).outcome with
  | error cause => simp [proceed_of_error ho, fail] at h
  | ok d =>
    have := cursor_await ho
    have heq : r.proceed c = resume (·.proceed (r.await c).cursor) (r.await c).cursor
        ((r.waited c).step d.toEvent) := proceed_of_ok ho
    rw [heq] at h ⊢
    rcases resume_eq_ok h with ⟨v, hv, hclose⟩ | ⟨hnone, hnext⟩
    · rw [hclose] at h ⊢
      have hverdict : v = report.verdict := congrArg Report.verdict (Except.ok.inj h)
      subst hverdict
      exact ⟨r, c, d, .here, ⟨ho, hv, h⟩, rfl⟩
    · rw [hnext] at h ⊢
      obtain ⟨s, c', d', hpasses, hreports, hsim⟩ := proceed_eq_ok h
      exact ⟨s, c', d', (Passes.here.step ho hnone).trans hpasses, hreports, hsim⟩
termination_by c.remaining

end Run

namespace Controller

variable {G σ ν ε : Type} [WordSource G] [Node ν] [Simulator σ ν ε]

/-- A run at its first wait. -/
def begun (c : Controller G) (sim : σ) : Run G σ :=
  (({ controller := c, sim } : Run G σ).step (.start (Simulator.now sim))).2

/-- A run that comes to a report does so from its first wait on. -/
theorem run_eq_ok {c : Controller G} (hs : c.stage = .armed) {sim : σ} {cursor : Cursor}
    {report : Report} (h : (c.run sim cursor).result = .ok report) :
    (({ controller := c, sim } : Run G σ).step (.start (Simulator.now sim))).1 = .ok none ∧
      c.run sim cursor = (c.begun sim).proceed cursor := by
  rw [run_eq_resume] at h ⊢
  rcases Run.resume_eq_ok h with ⟨v, hv, -⟩ | hnone
  · cases Run.step_start hs hv
  · exact hnone

end Controller

end MoteBench
