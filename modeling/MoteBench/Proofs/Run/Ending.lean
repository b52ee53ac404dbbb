import Mathlib.Logic.Function.Iterate
import MoteBench.Proofs.Run.Account
import MoteBench.Proofs.World.Request

/-!
How long a run asks a simulation for deliveries. The run of an armed controller asks as long as the
controller has no verdict, and reports as soon as it has one. A run goes by the verdict that it was
asked to end with, though, and does not look at one that its controller had from before. Such a
controller answers everything with nothing, so that the run takes what there is to take.
-/
namespace MoteBench

open MoteBench.Random Memory Controller

/-- What a controller can be told of the answers of a simulation. Those that are dropped in a wait make
no difference to it. -/
def eventsOf (asked : List (Option Delivery)) : List Event :=
  asked.filterMap fun d? => d?.map Delivery.toEvent

namespace Controller

variable {G ε : Type} [WordSource G]

/-- The controller `c` is told what comes of `asked`, and the run comes to `result`. -/
structure Concludes (c : Controller G) (asked : List (Option Delivery))
    (result : Except (RunError ε) Report) : Prop where
  /-- There is no verdict yet when the simulation is asked. -/
  undecided : ∀ front answer back, asked = front ++ answer :: back →
    (c.afterAll (eventsOf front)).verdict? = none
  /-- The report is made exactly if there is a verdict in the end, and with it. -/
  verdict_iff : ∀ v, (c.afterAll (eventsOf asked)).verdict? = some v ↔
    ∃ report, result = .ok report ∧ report.verdict = v

variable {c : Controller G} {asked : List (Option Delivery)} {result : Except (RunError ε) Report}

theorem concludes_error (h : c.verdict? = none) (cause : RunError ε) :
    c.Concludes [] (.error cause) where
  undecided := by simp
  verdict_iff := by simp [eventsOf, h]

theorem concludes_ok {report : Report} (h : c.verdict? = some report.verdict) :
    c.Concludes [] (.ok report : Except (RunError ε) Report) where
  undecided := by simp
  verdict_iff := by simp [eventsOf, h]

theorem Concludes.cons (hnone : c.verdict? = none) {answer : Option Delivery}
    (h : (c.afterAll (eventsOf [answer])).Concludes asked result) :
    c.Concludes (answer :: asked) result := by
  have hafter (front : List (Option Delivery)) : c.afterAll (eventsOf (answer :: front)) =
      (c.afterAll (eventsOf [answer])).afterAll (eventsOf front) := by
    rw [← afterAll_append, eventsOf, eventsOf, eventsOf, ← List.filterMap_append]
    rfl
  constructor
  case undecided =>
    intro front answer' back hsplit
    cases front with
    | nil => exact hnone
    | cons first front =>
      obtain ⟨rfl, hrest⟩ := List.cons.inj hsplit
      rw [hafter]
      exact h.undecided front answer' back hrest
  case verdict_iff =>
    rw [hafter]
    exact h.verdict_iff

end Controller

namespace Run

variable {G σ ν ε : Type} [Node ν] [Simulator σ ν ε]

/-- No simulation can refuse lines and a verdict. -/
theorem performAll_finish (c : Controller G) {evidence : List Action}
    (hevidence : ∀ a ∈ evidence, ∃ level text, a = .log level text) (v : Verdict) (r : Run G σ) :
    (performAll (c.finish evidence v).actions r).1 = .ok () := by
  refine performAll_of_forall (fun a ha s => ?_) r
  rcases mem_actions_finish hevidence ha with ⟨level, text, rfl⟩ | rfl <;> rfl

variable [WordSource G]

/-- A delivery ends the run exactly if it brings the controller to its verdict. -/
theorem step_delivery {r : Run G σ} (hs : r.controller.stage = .running) (d : Delivery) :
    (∃ v, (r.step d.toEvent).1 = .ok (some v) ∧
      (r.step d.toEvent).2.controller.verdict? = some v) ∨
    (∀ v, (r.step d.toEvent).1 ≠ .ok (some v)) ∧
      (r.step d.toEvent).2.controller.stage = .running := by
  obtain ⟨reaction, hhandle, hc | ⟨evidence, v, hevidence, rfl⟩⟩ := handle_delivery hs d
  · right
    rw [controller_step, after_of_handle hhandle]
    refine ⟨fun v hv => ?_, hc.stage⟩
    obtain ⟨actions, hanswer, hlast, -, -⟩ := step_eq_ok hv
    rw [answer_of_handle hhandle] at hanswer
    rw [← Except.ok.inj hanswer, verdicts_eq_nil_of_isProgress hc.progress] at hlast
    cases hlast
  · -- Nothing that goes with a verdict can be refused, so the verdict comes through to the run.
    left
    have hprogress : ∀ a ∈ evidence, a.isProgress := by
      intro a ha
      obtain ⟨level, text, rfl⟩ := hevidence a ha
      rfl
    refine ⟨v, ?_, ?_⟩
    · rw [step_of_handle hhandle, performAll_finish r.controller hevidence,
        verdicts_of_ends (ends_finish r.controller v hprogress)]
      rfl
    · rw [controller_step, after_of_handle hhandle]
      rfl

omit [Node ν] in
/-- What a run comes to after an event that brings a verdict to both run and controller, or to
neither. -/
theorem concludes_resume (next : Run G (Recorded σ) → Outcome (Recorded σ) ε) (c : Cursor)
    {r : Except (RunError ε) (Option Verdict) × Run G (Recorded σ)}
    (hr : (∃ v, r.1 = .ok (some v) ∧ r.2.controller.verdict? = some v) ∨
      (∀ v, r.1 ≠ .ok (some v)) ∧ r.2.controller.stage = .running)
    (hnext : r.1 = .ok none → ∃ asked, (next r.2).sim.answers = r.2.sim.answers ++ asked ∧
      r.2.controller.Concludes asked (next r.2).result) :
    ∃ asked, (resume next c r).sim.answers = r.2.sim.answers ++ asked ∧
      r.2.controller.Concludes asked (resume next c r).result := by
  rcases hr with ⟨v, hv, hverdict⟩ | ⟨hnot, hrunning⟩
  · rw [resume_of_verdict hv]
    exact ⟨[], (List.append_nil _).symm, concludes_ok hverdict⟩
  · cases hv : r.1 with
    | error cause =>
      rw [resume_of_error hv]
      exact ⟨[], (List.append_nil _).symm, concludes_error (verdict?_of_running hrunning) _⟩
    | ok v? =>
      cases v? with
      | some v => exact absurd hv (hnot v)
      | none =>
        rw [resume_of_none hv]
        exact hnext hv

theorem concludes_proceedPlainly {r : Run G (Recorded σ)} (hs : r.controller.stage = .running)
    (c : Cursor) : ∃ asked, (r.proceedPlainly c).sim.answers = r.sim.answers ++ asked ∧
      r.controller.Concludes asked (r.proceedPlainly c).result := by
  have hundecided := verdict?_of_running hs
  rcases Nat.lt_or_ge c.delivered c.limit with hlimit | hlimit
  · rcases hnext : Simulator.next r.sim with ⟨_ | d, sim⟩
    · rw [proceedPlainly_of_none hlimit hnext]
      exact ⟨[none], Recorded.answers_of_next hnext, .cons hundecided (concludes_error hundecided _)⟩
    · let taken : Run G (Recorded σ) := { r with sim }
      have hanswers : (taken.step d.toEvent).2.sim.answers = r.sim.answers ++ [some d] :=
        (answers_step taken d.toEvent).trans (Recorded.answers_of_next hnext)
      let cursor : Cursor := { c with delivered := c.delivered + 1 }
      rw [proceedPlainly_of_next hlimit hnext]
      obtain ⟨asked, hasked, hconcludes⟩ :=
        concludes_resume (·.proceedPlainly cursor) cursor (step_delivery (r := taken) hs d)
          fun hnone => concludes_proceedPlainly (stage_step (r := taken) hs hnone) cursor
      refine ⟨some d :: asked, ?_, .cons hundecided ?_⟩
      · rw [hasked, hanswers, List.append_assoc]
        rfl
      · rw [controller_step] at hconcludes
        exact hconcludes
  · rw [proceedPlainly_of_limit hlimit]
    exact ⟨[], (List.append_nil _).symm, concludes_error hundecided _⟩
termination_by c.remaining
decreasing_by
  simp only [Cursor.remaining]
  omega

/-- Between two waits of an ended controller nothing happens. -/
theorem step_of_ended {r : Run G σ} {v : Verdict} (hs : r.controller.stage = .ended v) (e : Event) :
    r.step e = (.ok none, r) :=
  step_of_nothing (handle_ended hs e)

end Run

/-- All that the simulation has to deliver is taken, up to the limit, and there is no report. -/
structure Outcome.Drains {σ ν ε : Type} [Simulator σ ν ε] (o : Outcome (Recorded σ) ε)
    (sim : Recorded σ) (c : Cursor) : Prop where
  taken : ∃ n, o.sim = (fun s => (Simulator.next s).2)^[n] sim
  ends : ∃ pulled : List Delivery,
    o.sim.answers = sim.answers ++ pulled.map some ∧ c.delivered + pulled.length = c.limit ∧
      o.result = .error (.wait (.limitReached c.limit (Simulator.now o.sim))) ∨
    o.sim.answers = sim.answers ++ pulled.map some ++ [none] ∧ c.delivered + pulled.length < c.limit ∧
      o.result = .error (.wait (.stalled (Simulator.now o.sim)))

theorem Outcome.Drains.of_next {σ ν ε : Type} [Simulator σ ν ε] {o : Outcome (Recorded σ) ε}
    {sim sim' : Recorded σ} {d : Delivery} (hnext : Simulator.next sim = (some d, sim')) {c : Cursor}
    (h : o.Drains sim' { c with delivered := c.delivered + 1 }) : o.Drains sim c := by
  obtain ⟨⟨n, hn⟩, pulled, hends⟩ := h
  have hanswers := Recorded.answers_of_next hnext
  refine ⟨⟨n + 1, ?_⟩, d :: pulled, ?_⟩
  · rw [Function.iterate_succ_apply, hnext]
    exact hn
  · rw [hanswers] at hends
    simpa [Nat.add_assoc, Nat.add_comm 1] using hends

theorem Outcome.Drains.of_agrees {σ ν ε : Type} [Simulator σ ν ε] {o p : Outcome (Recorded σ) ε}
    {sim : Recorded σ} {c : Cursor} (h : p.Drains sim c) (hop : o.Agrees p) : o.Drains sim c := by
  obtain ⟨htaken, hends⟩ := h
  rw [← hop.sim] at htaken hends
  rw [← hop.result] at hends
  exact ⟨htaken, hends⟩

namespace Run

variable {G σ ν ε : Type} [Node ν] [Simulator σ ν ε] [WordSource G]

theorem drains_proceedPlainly {r : Run G (Recorded σ)} {v : Verdict}
    (hs : r.controller.stage = .ended v) {c : Cursor} (hc : c.delivered ≤ c.limit) :
    (r.proceedPlainly c).Drains r.sim c := by
  rcases Nat.lt_or_eq_of_le hc with hlimit | hlimit
  · rcases hnext : Simulator.next r.sim with ⟨_ | d, sim⟩
    · have hanswers := Recorded.answers_of_next hnext
      rw [proceedPlainly_of_none hlimit hnext]
      refine ⟨⟨1, (congrArg Prod.snd hnext).symm⟩, [], .inr ⟨?_, hlimit, rfl⟩⟩
      rw [List.map_nil, List.append_nil]
      exact hanswers
    · rw [proceedPlainly_of_next hlimit hnext, step_of_ended (r := { r with sim }) hs]
      exact (drains_proceedPlainly (r := { r with sim }) hs
        (c := { c with delivered := c.delivered + 1 }) hlimit).of_next hnext
  · rw [proceedPlainly_of_limit (Nat.le_of_eq hlimit.symm)]
    exact ⟨⟨0, rfl⟩, [], .inl ⟨(List.append_nil _).symm, hlimit, rfl⟩⟩
termination_by c.remaining
decreasing_by
  simp only [Cursor.remaining]
  omega

end Run

namespace Controller

variable {G σ ν ε : Type} [WordSource G] [Node ν] [Simulator σ ν ε]

theorem concludes_runPlainly {c : Controller G} (hs : c.stage = .armed) (sim : σ) (limit : Nat) :
    (c.after (.start (Simulator.now sim))).Concludes
      (c.runPlainly ({ sim } : Recorded σ) { limit }).sim.answers
      (c.runPlainly ({ sim } : Recorded σ) { limit }).result := by
  let r : Run G (Recorded σ) := { controller := c, sim := { sim } }
  have hstart : (∀ v, (r.step (.start (Simulator.now sim))).1 ≠ .ok (some v)) ∧
      (r.step (.start (Simulator.now sim))).2.controller.stage = .running := by
    refine ⟨fun v hv => ?_, Run.stage_step_start hs _⟩
    cases Run.step_start hs hv
  obtain ⟨asked, hasked, hconcludes⟩ := Run.concludes_resume (·.proceedPlainly { limit }) { limit }
    (.inr hstart) fun _ => Run.concludes_proceedPlainly hstart.2 { limit }
  rw [Run.answers_step] at hasked
  rw [Run.controller_step] at hconcludes
  have hanswers : (c.runPlainly ({ sim } : Recorded σ) { limit }).sim.answers = asked := hasked
  rw [hanswers]
  exact hconcludes

/-- How a run of the controller `c` goes, by the stage that `c` is at before it. -/
structure GoesByStage (c : Controller G) (sim : σ) (limit : Nat) : Prop where
  observed : (c.run ({ sim } : Recorded σ) { limit }).map Recorded.sim = c.run sim { limit }
  armed : c.stage = .armed → (c.after (.start (Simulator.now sim))).Concludes
    (c.run ({ sim } : Recorded σ) { limit }).sim.answers (c.run sim { limit }).result
  /-- Nothing is asked of the simulation. -/
  running : c.stage = .running → c.run ({ sim } : Recorded σ) { limit } =
    ⟨.error (.controller .alreadyStarted), { sim }, { limit }, []⟩
  /-- The verdict from before is not reported. -/
  ended : ∀ v, c.stage = .ended v → (c.run ({ sim } : Recorded σ) { limit }).Drains { sim } { limit }

/-- Only an armed controller is run to a verdict: a run is refused by one that is running, and one
that has its verdict lets the run take what comes. -/
theorem run_goesByStage (c : Controller G) (sim : σ) (limit : Nat) : c.GoesByStage sim limit := by
  have hforget := c.run_map Recorded.hom ({ sim } : Recorded σ) { limit }
  constructor
  case observed => exact hforget.symm
  case armed =>
    intro hs
    have hagrees := c.run_agrees_runPlainly hs ({ sim } : Recorded σ) { limit }
    have hresult : (c.run sim { limit }).result =
        (c.runPlainly ({ sim } : Recorded σ) { limit }).result :=
      (congrArg Outcome.result hforget).trans hagrees.result
    rw [hagrees.sim, hresult]
    exact concludes_runPlainly hs sim limit
  case running =>
    intro hs
    have hrefused : c.handle (.start (Simulator.now sim)) = .error .alreadyStarted :=
      handle_of_answer (answer_eq_error_iff.mpr (.inr (.inr ⟨hs, ⟨_, rfl⟩, rfl⟩)))
    rw [run_eq_resume, Run.step_of_refused hrefused]
    rfl
  case ended =>
    intro v hs
    rw [run_eq_resume, Run.step_of_ended hs]
    have hstarted : c.stage ≠ .armed := by simp [hs]
    exact (Run.drains_proceedPlainly (r := { controller := c, sim := { sim } }) hs
      (Nat.zero_le limit)).of_agrees (Run.agrees_proceedPlainly hstarted _)

/-- The budget elapsed and brought a pass before the run. The run takes the one message that there
is, and stalls. -/
theorem run_stalls_after_verdict :
    let plan : Plan := { budget := .ofMillis 1000 }
    let c : Controller KeyStream :=
      ({ plan, ports := .ofSeed 7 } : Controller KeyStream).afterAll [.start .zero, .timeout (.ofMicros 5)]
    let w := ((World.withMotes 1 1).serve (.print (.ofMicros 5) 1 "x")).2
    let outcome : Outcome World World.Refusal := c.run w { limit := 9 }
    c.verdict? = some .timeoutPass ∧ w.now = .zero ∧
      outcome.result = .error (.wait (.stalled (.ofMicros 5))) ∧ outcome.sim.now = .ofMicros 5 := by
  decide +kernel

end Controller

end MoteBench
