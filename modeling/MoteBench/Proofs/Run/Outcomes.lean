import MoteBench.Proofs.Run.Account
import MoteBench.Proofs.Run.Decision
import MoteBench.Proofs.World.Deadline

/-!
All the ways in which a run on a world can end. The run arms the timeout before it does anything
else, so a world that will not have it stays as it was. Any other world keeps the timeout in store,
and never runs dry before it.
-/
namespace MoteBench

open MoteBench.Random Memory Controller

namespace Run

variable {G : Type}

/-- A run that the timeout at `deadline` will end, if nothing ends it before. -/
structure Awaits (r : Run G World) (deadline : Instant) : Prop where
  running : r.controller.stage = .running
  sim : r.sim.Awaits deadline

theorem awaits_performAll {r : Run G World} {deadline : Instant} (h : r.sim.Awaits deadline)
    {actions : List Action} (hactions : ∀ a ∈ actions, a.budget? = none) :
    (performAll actions r).2.sim.Awaits deadline := by
  refine performAll_induction (P := fun s : Run G World => s.sim.Awaits deadline)
    (fun a ha s hs => ?_) h
  have hnone := hactions a ha
  cases a with
  | armTimeout after => cases hnone
  | log severity line => exact hs
  | finish v => exact hs
  | broadcast bindings => exact hs.of_subset rfl (List.Subset.refl _)
  | generate delay payload => exact hs.of_subset rfl (World.subset_put _ _ _)

variable [WordSource G]

/-- A world lets a running controller have its way. -/
theorem step_of_running {r : Run G World} (hs : r.controller.stage = .running) (d : Delivery) :
    ∃ reaction, r.controller.handle d.toEvent = .ok reaction ∧
      (∀ a ∈ reaction.actions, a.budget? = none) ∧
      (r.step d.toEvent).1 = .ok (reaction.actions.filterMap (·.verdict?)).getLast? := by
  obtain ⟨reaction, hreaction, -⟩ := handle_delivery hs d
  have hbudget : ∀ a ∈ reaction.actions, a.budget? = none := by
    rcases handle_of_running hs hreaction with hc | ⟨v, hv⟩
    · exact fun a ha => Action.budget?_of_isProgress (hc.progress a ha)
    · exact hv.budget?
  refine ⟨reaction, hreaction, hbudget, ?_⟩
  rw [step_of_handle hreaction, performAll_ok hbudget]
  rfl

/-- An awaited timeout is on the agenda, so there is a delivery to take. It brings a verdict, or the
timeout is still to come. -/
theorem Awaits.step_next {r : Run G World} {deadline : Instant} (h : r.Awaits deadline) :
    ∃ d, r.sim.next.1 = some d ∧
      let answered := ({ r with sim := r.sim.next.2 } : Run G World).step d.toEvent
      (∃ v, answered.1 = .ok (some v)) ∨ answered.1 = .ok none ∧ answered.2.Awaits deadline := by
  let taken : Run G World := { r with sim := r.sim.next.2 }
  rcases h.sim.next with ⟨m, hm, hleft⟩ | ⟨time, htime⟩
  · refine ⟨.message m, hm, ?_⟩
    obtain ⟨reaction, hreaction, hbudget, hverdict⟩ :=
      step_of_running (r := taken) h.running (.message m)
    cases hv : (reaction.actions.filterMap (·.verdict?)).getLast? with
    | some v => exact .inl ⟨v, hverdict.trans (congrArg _ hv)⟩
    | none =>
      have hnone := hverdict.trans (congrArg _ hv)
      refine .inr ⟨hnone, stage_step (r := taken) h.running hnone, ?_⟩
      rw [step_of_handle (r := taken) hreaction]
      exact awaits_performAll (r := taken.adopt reaction) hleft hbudget
  · refine ⟨.timeout time, htime, .inl ?_⟩
    obtain ⟨reaction, hreaction, -, hverdict⟩ :=
      step_of_running (r := taken) h.running (.timeout time)
    obtain rfl := Except.ok.inj ((handle_timeout h.running time).symm.trans hreaction)
    rw [verdicts_of_ends (ends_onTimeout r.controller time)] at hverdict
    exact ⟨_, hverdict⟩

end Run

/-- The outcome of a run that took `pulled` deliveries and might take `limit`. It is a report, or
the run took them all and was cut off. -/
structure Outcome.Settles (o : Outcome (Recorded World) World.Refusal) (pulled limit : Nat) :
    Prop where
  le : pulled ≤ limit
  ends : (∃ report, o.result = .ok report ∧ report.eventsDelivered = pulled) ∨
    pulled = limit ∧ o.result = .error (.wait (.limitReached limit o.sim.sim.now))

theorem Outcome.Settles.of_agrees {o p : Outcome (Recorded World) World.Refusal}
    {pulled limit : Nat} (h : p.Settles pulled limit) (hop : o.Agrees p) :
    o.Settles pulled limit := by
  refine ⟨h.le, ?_⟩
  rw [hop.result, hop.sim]
  exact h.ends

namespace Run

variable {G : Type} [WordSource G]

theorem settles_proceedPlainly {r : Run G (Recorded World)} {deadline : Instant}
    (h : (r.map Recorded.sim).Awaits deadline) {c : Cursor} (hc : c.delivered ≤ c.limit) :
    ∃ pulled : List Delivery,
      (r.proceedPlainly c).sim.answers = r.sim.answers ++ pulled.map some ∧
      (r.proceedPlainly c).Settles (c.delivered + pulled.length) c.limit := by
  rcases Nat.lt_or_eq_of_le hc with hlimit | hlimit
  · obtain ⟨d, hd, hanswered⟩ := h.step_next
    let taken : Run G (Recorded World) := { r with sim := (Simulator.next r.sim).2 }
    have htaken : Simulator.next r.sim = (some d, taken.sim) := Prod.ext hd rfl
    have hanswers : (taken.step d.toEvent).2.sim.answers = r.sim.answers ++ [some d] :=
      (answers_step taken d.toEvent).trans (Recorded.answers_of_next htaken)
    have hcases : (∃ v, (taken.step d.toEvent).1 = .ok (some v)) ∨
        (taken.step d.toEvent).1 = .ok none ∧
          ((taken.step d.toEvent).2.map Recorded.sim).Awaits deadline := by
      change let answered := (taken.map Recorded.sim).step d.toEvent
        (∃ v, answered.1 = _) ∨ answered.1 = _ ∧ answered.2.Awaits deadline at hanswered
      rw [step_map Recorded.hom] at hanswered
      exact hanswered
    rw [proceedPlainly_of_next hlimit htaken]
    rcases hcases with ⟨v, hv⟩ | ⟨hnone, hawaits⟩
    · rw [resume_of_verdict hv]
      exact ⟨[d], hanswers, hlimit, .inl ⟨_, rfl, rfl⟩⟩
    · rw [resume_of_none hnone]
      obtain ⟨pulled, hrest, hsettles⟩ :=
        settles_proceedPlainly hawaits (c := { c with delivered := c.delivered + 1 }) hlimit
      refine ⟨d :: pulled, ?_, ?_⟩
      · rw [hrest, hanswers, List.append_assoc]
        rfl
      · rwa [List.length_cons, Nat.add_comm pulled.length, ← Nat.add_assoc]
  · rw [proceedPlainly_of_limit hlimit.ge]
    exact ⟨[], (List.append_nil _).symm, hc, .inr ⟨hlimit, rfl⟩⟩
termination_by c.remaining
decreasing_by
  simp only [Cursor.remaining]
  omega

/-- The start asks for the timeout before anything else, and goes no further if it is refused. -/
theorem step_start_of_refused {σ ν ε : Type} [Node ν] [Simulator σ ν ε] {r : Run G σ}
    (hs : r.controller.stage = .armed) {cause : ε}
    (h : Simulator.armTimeout r.sim r.controller.plan.budget = (.error cause, r.sim, []))
    (now : Instant) :
    (r.step (.start now)).1 = .error (.simulator cause) ∧
      (r.step (.start now)).2.sim = r.sim := by
  obtain ⟨rest, heq, -⟩ := actions_start r.controller now
  let opened : Run G σ := ((r.adopt (r.controller.start now)).perform
    (.log .info (startingLine r.controller.plan now))).2
  have hrefused : opened.perform (.armTimeout r.controller.plan.budget) =
      (.error cause, { opened with trace := opened.trace ++ ([] : Trace) }) := by
    rw [perform, show Simulator.armTimeout opened.sim _ = _ from h]
    rfl
  rw [step_of_handle (handle_start hs _), heq, performAll_cons_of_ok rfl,
    performAll_cons_of_error (congrArg Prod.fst hrefused), congrArg Prod.snd hrefused]
  exact ⟨rfl, rfl⟩

theorem awaits_step_start {r : Run G World} (hs : r.controller.stage = .armed) {w : World}
    (h : r.sim.armTimeout r.controller.plan.budget = .ok w) :
    (r.step (.start r.sim.now)).1 = .ok none ∧
      (r.step (.start r.sim.now)).2.Awaits (r.sim.now + r.controller.plan.budget) := by
  obtain ⟨begun, rest, -, hworld, hprogress, -, heq⟩ := step_start_of_armTimeout hs h
  refine ⟨congrArg Prod.fst heq, stage_step_start hs _, ?_⟩
  rw [heq]
  exact awaits_performAll (hworld ▸ World.awaits_of_armTimeout h)
    fun a ha => Action.budget?_of_isProgress (hprogress a ha)

end Run

section Start

variable {G : Type} [WordSource G] {c : Controller G} {w : World}

theorem Controller.run_of_refused (hs : c.stage = .armed) {cause : World.Refusal}
    (h : w.armTimeout c.plan.budget = .error cause) (cursor : Cursor) :
    (c.run ({ sim := w } : Recorded World) cursor).result = .error (.simulator cause) ∧
      (c.run ({ sim := w } : Recorded World) cursor).sim = { sim := w } := by
  let r : Run G (Recorded World) := { controller := c, sim := { sim := w } }
  have hrefused : Simulator.armTimeout r.sim c.plan.budget = (.error cause, r.sim, []) := by
    simp [r, Simulator.armTimeout, h, World.settle]
  obtain ⟨herror, hsim⟩ := Run.step_start_of_refused hs hrefused w.now
  have hrun : c.run ({ sim := w } : Recorded World) cursor =
      (r.step (.start w.now)).2.fail cursor (.simulator cause) :=
    (c.run_eq_resume _ cursor).trans (Run.resume_of_error herror)
  rw [hrun]
  exact ⟨rfl, hsim⟩

theorem Controller.settles_run (hs : c.stage = .armed) {w' : World}
    (h : w.armTimeout c.plan.budget = .ok w') (limit : Nat) :
    ∃ pulled : List Delivery,
      (c.run ({ sim := w } : Recorded World) { limit }).sim.answers = pulled.map some ∧
      (c.run ({ sim := w } : Recorded World) { limit }).Settles pulled.length limit := by
  let r : Run G (Recorded World) := { controller := c, sim := { sim := w } }
  let started := r.step (.start w.now)
  have hanswers : started.2.sim.answers = [] := Run.answers_step r _
  have hstarted : started.1 = .ok none ∧
      (started.2.map Recorded.sim).Awaits (w.now + c.plan.budget) := by
    have hawaits := Run.awaits_step_start (r := r.map Recorded.sim) hs h
    rw [Run.step_map Recorded.hom] at hawaits
    exact hawaits
  obtain ⟨hnone, hawaits⟩ := hstarted
  have hplain : c.runPlainly ({ sim := w } : Recorded World) { limit } =
      started.2.proceedPlainly { limit } := Run.resume_of_none hnone
  obtain ⟨pulled, htotal, hsettles⟩ :=
    Run.settles_proceedPlainly hawaits (c := { limit }) (Nat.zero_le limit)
  have hagrees := c.run_agrees_runPlainly hs ({ sim := w } : Recorded World) { limit }
  rw [hplain] at hagrees
  rw [hanswers, List.nil_append] at htotal
  rw [Nat.zero_add] at hsettles
  exact ⟨pulled, (congrArg Recorded.answers hagrees.sim).trans htotal, hsettles.of_agrees hagrees⟩

end Start

/-- How a run on the world `w` ends that has the given `budget` and may take `limit` deliveries. -/
structure Outcome.Classified (o : Outcome (Recorded World) World.Refusal) (w : World)
    (budget : Span) (limit : Nat) : Prop where
  /-- A timeout that has fired is not armed again, and the world stays as it was. -/
  fired : w.timeout = .fired →
    o.result = .error (.simulator .timeoutFired) ∧ o.sim = { sim := w }
  /-- Nor is one that is armed for later than the budget. -/
  later : ∀ armed, w.timeout = .armed armed → w.now + budget < armed →
    o.result = .error (.simulator (.timeoutEarlier armed (w.now + budget))) ∧ o.sim = { sim := w }
  /-- In every other case all that can keep the run from its report is the limit. -/
  settles : w.timeout ≠ .fired → (∀ armed, w.timeout = .armed armed → armed ≤ w.now + budget) →
    ∃ pulled : List Delivery, o.sim.answers = pulled.map some ∧ o.Settles pulled.length limit

/-- Every run of a new controller ends on every world, whatever was asked of the world before and
whatever ran on it, and is classified by the state of the timeout. -/
theorem run_classified {G : Type} [WordSource G] (plan : Plan) (ports : Port.Allocator G)
    (w : World) (limit : Nat) :
    let c : Controller G := { plan, ports }
    let outcome : Outcome World World.Refusal := c.run w { limit }
    let recorded : Outcome (Recorded World) World.Refusal := c.run { sim := w } { limit }
    recorded.map Recorded.sim = outcome ∧ recorded.Classified w plan.budget limit := by
  intro c outcome recorded
  have hs : c.stage = .armed := rfl
  refine ⟨(c.run_map Recorded.hom ({ sim := w } : Recorded World) { limit }).symm, ?_⟩
  constructor
  case fired =>
    intro hfired
    exact c.run_of_refused hs (World.armTimeout_eq_error_iff.mpr (.inl ⟨hfired, rfl⟩)) _
  case later =>
    intro armed harmed hlater
    exact c.run_of_refused hs
      (World.armTimeout_eq_error_iff.mpr (.inr ⟨armed, harmed, hlater, rfl⟩)) _
  case settles =>
    intro hfired hlater
    cases h : w.armTimeout plan.budget with
    | ok w' => exact c.settles_run hs h limit
    | error cause =>
      rcases World.armTimeout_eq_error_iff.mp h with ⟨hfired', -⟩ | ⟨armed, harmed, hlt, -⟩
      · exact absurd hfired' hfired
      · exact absurd hlt (not_lt_of_ge (hlater armed harmed))

end MoteBench
