import MoteBench.Proofs.Controller.Lifecycle
import MoteBench.Proofs.Run.Alike

/-!
A run may take whatever comes next and hand all of it to the controller. That it waits for one
message and drops the others instead shows in nothing but the trace.
-/
namespace MoteBench

open MoteBench.Random Memory Controller

namespace Controller

variable {G : Type}

theorem wait_eq_cue_iff {c : Controller G} {text : String} :
    c.wait = .cue text ↔ ∃ cycle phase, c.cycle? = some (cycle, phase) ∧ text = cycle.cue := by
  unfold wait
  cases c.cycle? with
  | none => simp
  | some cp =>
    obtain ⟨cycle, phase⟩ := cp
    simp [eq_comm]

variable [WordSource G]

/-- A message that does not end the wait means nothing to the controller. -/
theorem onMessage_of_not_wakesOn {c : Controller G} (hs : c.stage = .running) {m : Message}
    (h : c.wakesOn m = false) : c.onMessage m = { actions := [], controller := c } := by
  unfold wakesOn at h
  rw [hs] at h
  cases hw : c.wait with
  | any => simp [hw] at h
  | cue text =>
    obtain ⟨cycle, phase, hcycle, rfl⟩ := wait_eq_cue_iff.mp hw
    simp only [hw, Bool.or_eq_false_iff, decide_eq_false_iff_not] at h
    obtain ⟨⟨hcue, hfails⟩, hpasses⟩ := h
    rw [onMessage_of_not_decides (Plan.decides_eq_false.mpr ⟨hfails, hpasses⟩), hcycle]
    exact if_neg hcue

theorem handle_of_not_wakesOn {c : Controller G} (hs : c.stage ≠ .armed) {m : Message}
    (h : c.wakesOn m = false) :
    c.handle (.message m) = .ok { actions := [], controller := c } := by
  cases hstage : c.stage with
  | armed => exact absurd hstage hs
  | running => rw [handle_message hstage, onMessage_of_not_wakesOn hstage h]
  | ended v => exact handle_ended hstage _

end Controller

namespace Run

variable {G σ ν ε : Type} [Simulator σ ν ε]

/-- Alike runs come to the same. -/
theorem Alike.resume {r s : Except (RunError ε) (Option Verdict) × Run G σ}
    {next next' : Run G σ → Outcome σ ε} (hfst : r.1 = s.1) (halike : r.2.Alike s.2)
    (hnext : r.1 = .ok none → (next r.2).Agrees (next' s.2)) (c : Cursor) :
    (Run.resume next c r).Agrees (Run.resume next' c s) := by
  obtain ⟨v?, r⟩ := r
  obtain ⟨v?', s⟩ := s
  obtain rfl : v? = v?' := hfst
  obtain ⟨-, hsim, hb, hl⟩ := halike
  dsimp only at hsim hb hl
  cases v? with
  | error e => exact ⟨rfl, hsim.symm, rfl⟩
  | ok v? =>
    cases v? with
    | none => exact hnext rfl
    | some v => exact ⟨by simp only [Run.resume, close, hsim, hb, hl], hsim.symm, rfl⟩

theorem resume_of_error {next : Run G σ → Outcome σ ε} {cursor : Cursor} {e : RunError ε}
    {r : Except (RunError ε) (Option Verdict) × Run G σ} (h : r.1 = .error e) :
    resume next cursor r = r.2.fail cursor e := by
  obtain ⟨v?, r⟩ := r
  obtain rfl : v? = .error e := h
  rfl

theorem resume_of_verdict {next : Run G σ → Outcome σ ε} {cursor : Cursor} {v : Verdict}
    {r : Except (RunError ε) (Option Verdict) × Run G σ} (h : r.1 = .ok (some v)) :
    resume next cursor r = r.2.close cursor v := by
  obtain ⟨v?, r⟩ := r
  obtain rfl : v? = .ok (some v) := h
  rfl

theorem resume_of_none {next : Run G σ → Outcome σ ε} {cursor : Cursor}
    {r : Except (RunError ε) (Option Verdict) × Run G σ} (h : r.1 = .ok none) :
    resume next cursor r = next r.2 := by
  obtain ⟨v?, r⟩ := r
  obtain rfl : v? = .ok none := h
  rfl

theorem resume_eq_ok {next : Run G σ → Outcome σ ε} {c : Cursor}
    {r : Except (RunError ε) (Option Verdict) × Run G σ} {report : Report}
    (h : (Run.resume next c r).result = .ok report) :
    (∃ v, r.1 = .ok (some v) ∧ Run.resume next c r = r.2.close c v) ∨
      r.1 = .ok none ∧ Run.resume next c r = next r.2 := by
  obtain ⟨v?, r⟩ := r
  cases v? with
  | error e => simp [Run.resume, fail] at h
  | ok v? =>
    cases v? with
    | none => exact .inr ⟨rfl, rfl⟩
    | some v => exact .inl ⟨v, rfl, rfl⟩

theorem Alike.await {r s : Run G σ} (h : r.Alike s) (c : Cursor) : r.await c = s.await c := by
  obtain ⟨hcontroller, hsim, -, -⟩ := h
  have hwait : s.controller.wait = r.controller.wait := by rw [hcontroller]; rfl
  have hwakes : s.controller.wakesOn = r.controller.wakesOn := by rw [hcontroller]; rfl
  rw [Run.await, Run.await, hwait, hwakes, hsim]

/-- A wait ends with the next delivery unless that is a message to drop. -/
theorem await_eq_awaitNext {r : Run G σ} {c : Cursor}
    (h : ∀ text m, r.controller.wait = .cue text →
      (c.awaitNext r.sim).outcome = .ok (.message m) → r.controller.wakesOn m = true) :
    r.await c = c.awaitNext r.sim := by
  unfold await
  cases hw : r.controller.wait with
  | any => rfl
  | cue text => exact Cursor.awaitUntil_of_wanted fun m hm => h text m hw hm

variable [Node ν] [WordSource G]

/-- Event after event until a verdict, every one of them for the controller. -/
def proceedPlainly (r : Run G σ) (c : Cursor) : Outcome σ ε :=
  let waited := c.awaitNext r.sim
  let r := { r with sim := waited.sim }
  match h : waited.outcome with
  | .error e => r.fail waited.cursor (.wait e)
  | .ok d =>
    have := Cursor.remaining_awaitNext h
    match r.step d.toEvent with
    | (.error e, r) => r.fail waited.cursor e
    | (.ok (some v), r) => r.close waited.cursor v
    | (.ok none, r) => proceedPlainly r waited.cursor
termination_by c.remaining

theorem proceedPlainly_of_error {r : Run G σ} {c : Cursor} {cause : WaitError}
    (h : (c.awaitNext r.sim).outcome = .error cause) :
    r.proceedPlainly c = ({ r with sim := (c.awaitNext r.sim).sim } : Run G σ).fail
      (c.awaitNext r.sim).cursor (.wait cause) := by
  rw [proceedPlainly]
  split
  · rename_i cause' h'
    obtain rfl := Except.error.inj (h.symm.trans h')
    rfl
  · rename_i d h'
    simp [h] at h'

theorem proceedPlainly_of_ok {r : Run G σ} {c : Cursor} {d : Delivery}
    (h : (c.awaitNext r.sim).outcome = .ok d) :
    r.proceedPlainly c = resume (·.proceedPlainly (c.awaitNext r.sim).cursor)
      (c.awaitNext r.sim).cursor
      (({ r with sim := (c.awaitNext r.sim).sim } : Run G σ).step d.toEvent) := by
  rw [proceedPlainly]
  split
  · rename_i cause h'
    simp [h] at h'
  · rename_i d' h'
    obtain rfl := Except.ok.inj (h.symm.trans h')
    split <;> rename_i heq <;> rw [heq] <;> rfl

theorem proceedPlainly_of_limit {c : Cursor} (h : c.limit ≤ c.delivered) (r : Run G σ) :
    r.proceedPlainly c = r.fail c (.wait (.limitReached c.limit (Simulator.now r.sim))) := by
  have hwaited := Cursor.awaitNext_of_limit h r.sim
  rw [proceedPlainly_of_error (congrArg Waited.outcome hwaited), hwaited]

theorem proceedPlainly_of_none {c : Cursor} (hlimit : c.delivered < c.limit) {r : Run G σ} {sim : σ}
    (h : Simulator.next r.sim = (none, sim)) : r.proceedPlainly c =
      ({ r with sim } : Run G σ).fail c (.wait (.stalled (Simulator.now sim))) := by
  have hwaited := Cursor.awaitNext_of_none hlimit h
  rw [proceedPlainly_of_error (congrArg Waited.outcome hwaited), hwaited]

theorem proceedPlainly_of_next {c : Cursor} (hlimit : c.delivered < c.limit) {r : Run G σ}
    {sim : σ} {d : Delivery} (h : Simulator.next r.sim = (some d, sim)) :
    let cursor : Cursor := { c with delivered := c.delivered + 1 }
    r.proceedPlainly c = resume (·.proceedPlainly cursor) cursor
      (({ r with sim } : Run G σ).step d.toEvent) := by
  have hwaited := Cursor.awaitNext_of_next hlimit h
  rw [proceedPlainly_of_ok (congrArg Waited.outcome hwaited), hwaited]

/-- Runs that wait with the same success and are alike but for the simulation. -/
theorem agrees_proceed_of_await {r s : Run G σ} {c c' : Cursor}
    (houtcome : (r.await c).outcome = (s.await c').outcome)
    (hsim : (r.await c).sim = (s.await c').sim) (hcursor : (r.await c).cursor = (s.await c').cursor)
    (halike : ({ r with sim := s.sim } : Run G σ).Alike s)
    (hnext : ∀ d, (r.await c).outcome = .ok d → ∀ r' s' : Run G σ, r'.Alike s' →
      (r'.proceed (r.await c).cursor).Agrees (s'.proceed (r.await c).cursor)) :
    (r.proceed c).Agrees (s.proceed c') := by
  cases ho : (r.await c).outcome with
  | error cause =>
    rw [proceed_of_error ho, proceed_of_error (houtcome.symm.trans ho), ← hcursor, ← hsim]
    exact ⟨rfl, rfl, rfl⟩
  | ok d =>
    rw [proceed_of_ok ho, proceed_of_ok (houtcome.symm.trans ho), ← hcursor, ← hsim]
    obtain ⟨hcontroller, -, hb, hl⟩ := halike
    have hwaited : ({ r with
        sim := (r.await c).sim, trace := r.trace ++ (r.await c).trace } : Run G σ).Alike
        { s with sim := (r.await c).sim, trace := s.trace ++ (s.await c').trace } :=
      ⟨hcontroller, rfl, hb, hl⟩
    obtain ⟨hfst, hstep⟩ := hwaited.step d.toEvent
    exact Alike.resume hfst hstep (fun _ => hnext d ho _ _ hstep) _

/-- What a run was reported to do has no influence on what it will do. -/
theorem Alike.proceed {r s : Run G σ} (h : r.Alike s) (c : Cursor) :
    (r.proceed c).Agrees (s.proceed c) := by
  have hawait := h.await c
  refine agrees_proceed_of_await (by rw [hawait]) (by rw [hawait]) (by rw [hawait]) ?_ ?_
  · exact ⟨h.controller, rfl, h.broadcasts, h.log⟩
  · intro d ho r' s' h'
    have := cursor_await ho
    exact h'.proceed _
termination_by c.remaining

/-- Dropping a message while waiting for another is no different from going on without it. -/
theorem agrees_proceed_skip {r : Run G σ} {c : Cursor} {m : Message} {text : String}
    (hw : r.controller.wait = .cue text) (hm : (c.awaitNext r.sim).outcome = .ok (.message m))
    (hwakes : r.controller.wakesOn m = false) :
    (r.proceed c).Agrees (({ r with sim := (c.awaitNext r.sim).sim } : Run G σ).proceed
      (c.awaitNext r.sim).cursor) := by
  let skipped : Run G σ := { r with sim := (c.awaitNext r.sim).sim }
  have hrest : r.await c = { skipped.await (c.awaitNext r.sim).cursor with
      trace := .skipping m :: (skipped.await (c.awaitNext r.sim).cursor).trace } := by
    simp only [await, skipped, hw]
    exact Cursor.awaitUntil_of_unwanted hm hwakes
  refine agrees_proceed_of_await (by rw [hrest]) (by rw [hrest]) (by rw [hrest])
    ⟨rfl, rfl, rfl, rfl⟩ ?_
  intro d _ r' s' h'
  exact h'.proceed _

/-- A run that comes to a report takes a delivery, and then reports or goes on. -/
theorem proceedPlainly_eq_ok {r : Run G σ} {c : Cursor} {report : Report}
    (h : (r.proceedPlainly c).result = .ok report) :
    ∃ d, (c.awaitNext r.sim).outcome = .ok d ∧
      let taken : Run G σ := { r with sim := (c.awaitNext r.sim).sim }
      let cursor := (c.awaitNext r.sim).cursor
      (∃ v, (taken.step d.toEvent).1 = .ok (some v) ∧
        r.proceedPlainly c = (taken.step d.toEvent).2.close cursor v) ∨
      (taken.step d.toEvent).1 = .ok none ∧
        r.proceedPlainly c = (taken.step d.toEvent).2.proceedPlainly cursor := by
  cases ho : (c.awaitNext r.sim).outcome with
  | error cause => simp [proceedPlainly_of_error ho, fail] at h
  | ok d =>
    refine ⟨d, rfl, ?_⟩
    rw [proceedPlainly_of_ok ho] at h ⊢
    exact resume_eq_ok h

theorem delivered_lt_limit {r : Run G σ} {c : Cursor} {report : Report}
    (h : (r.proceedPlainly c).result = .ok report) : c.delivered < c.limit := by
  obtain ⟨d, ho, -⟩ := proceedPlainly_eq_ok h
  exact (Cursor.cursor_awaitNext ho).1

/-- An answer without a verdict leaves a running controller running. -/
theorem stage_step {r : Run G σ} (hs : r.controller.stage = .running) {e : Event}
    (h : (r.step e).1 = .ok none) : (r.step e).2.controller.stage = .running := by
  obtain ⟨actions, hanswer, hnone, -, -⟩ := step_eq_ok h
  obtain ⟨reaction, hhandle, rfl⟩ := handle_of_answer_ok hanswer
  rw [controller_step, after_of_handle hhandle]
  rcases handle_of_running hs hhandle with hc | ⟨v, hv⟩
  · exact hc.stage
  · simp [verdicts_of_ends hv] at hnone

/-- An event that asks for nothing leaves a run as it is. -/
theorem step_of_nothing {r : Run G σ} {e : Event}
    (h : r.controller.handle e = .ok { actions := [], controller := r.controller }) :
    r.step e = (.ok none, r) := by
  rw [step_of_handle h]
  simp only [performAll, adopt]
  rfl

/-- Once the controller was started it makes no difference what is dropped in a wait. -/
theorem agrees_proceedPlainly {r : Run G σ} (hs : r.controller.stage ≠ .armed) (c : Cursor) :
    (r.proceed c).Agrees (r.proceedPlainly c) := by
  let taken : Run G σ := { r with sim := (c.awaitNext r.sim).sim }
  by_cases hskip : ∃ text m, r.controller.wait = .cue text ∧
      (c.awaitNext r.sim).outcome = .ok (.message m) ∧ r.controller.wakesOn m = false
  · -- The plain run has the message answered with nothing, and both go on with the rest.
    obtain ⟨text, m, hw, hm, hwakes⟩ := hskip
    have hanswer : taken.step (Delivery.message m).toEvent = (.ok none, taken) :=
      step_of_nothing (handle_of_not_wakesOn hs hwakes)
    rw [proceedPlainly_of_ok hm, hanswer]
    have := Cursor.remaining_awaitNext hm
    exact (agrees_proceed_skip hw hm hwakes).trans (agrees_proceedPlainly (r := taken) hs _)
  · have hawait : r.await c = c.awaitNext r.sim := by
      apply await_eq_awaitNext
      intro text m hw hm
      exact Bool.of_not_eq_false fun hwakes => hskip ⟨text, m, hw, hm, hwakes⟩
    have htrace : ({ r with sim := (r.await c).sim, trace := r.trace ++ (r.await c).trace } :
        Run G σ) = taken := by
      simp [hawait, Cursor.trace_awaitNext, taken]
    cases ho : (c.awaitNext r.sim).outcome with
    | error cause =>
      rw [proceed_of_error (hawait ▸ ho), proceedPlainly_of_error ho, htrace, hawait]
      exact ⟨rfl, rfl, rfl⟩
    | ok d =>
      rw [proceed_of_ok (hawait ▸ ho), proceedPlainly_of_ok ho, htrace, hawait]
      have := Cursor.remaining_awaitNext ho
      have hstarted : (taken.step d.toEvent).2.controller.stage ≠ .armed := by
        rw [controller_step]
        exact fun harmed => hs (stage_after_eq_armed_iff.mp harmed).1
      refine Alike.resume rfl ⟨rfl, rfl, rfl, rfl⟩ (fun hnone => ?_) _
      exact agrees_proceedPlainly hstarted _
termination_by c.remaining

end Run

variable {G σ ν ε : Type} [WordSource G] [Node ν] [Simulator σ ν ε]

/-- Runs a controller that answers every delivery. -/
def Controller.runPlainly (c : Controller G) (sim : σ) (cursor : Cursor := {}) : Outcome σ ε :=
  Run.resume (·.proceedPlainly cursor) cursor
    (({ controller := c, sim } : Run G σ).step (.start (Simulator.now sim)))

theorem Controller.run_eq_resume (c : Controller G) (sim : σ) (cursor : Cursor) :
    c.run sim cursor = Run.resume (·.proceed cursor) cursor
      (({ controller := c, sim } : Run G σ).step (.start (Simulator.now sim))) := by
  rw [run]
  split <;> rename_i heq <;> rw [heq] <;> rfl

theorem Controller.run_agrees_runPlainly {c : Controller G} (h : c.stage = .armed) (sim : σ)
    (cursor : Cursor) : (c.run sim cursor).Agrees (c.runPlainly sim cursor) := by
  rw [run_eq_resume, runPlainly]
  have hrunning := Run.stage_step_start (r := { controller := c, sim }) h (Simulator.now sim)
  refine Run.Alike.resume rfl ⟨rfl, rfl, rfl, rfl⟩ (fun _ => ?_) _
  exact Run.agrees_proceedPlainly (by simp [hrunning]) _

/-- A run that comes to a report gets past its start. -/
theorem Controller.runPlainly_eq_ok {c : Controller G} (hs : c.stage = .armed) {sim : σ}
    {cursor : Cursor} {report : Report} (h : (c.runPlainly sim cursor).result = .ok report) :
    let r : Run G σ := { controller := c, sim }
    (r.step (.start (Simulator.now sim))).1 = .ok none ∧
      c.runPlainly sim cursor = (r.step (.start (Simulator.now sim))).2.proceedPlainly cursor := by
  rcases Run.resume_eq_ok h with ⟨v, hv, -⟩ | hnone
  · cases Run.step_start hs hv
  · exact hnone

end MoteBench
