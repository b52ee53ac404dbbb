import MoteBench.Proofs.Run.Plain
import MoteBench.Proofs.World.Decisive

/-!
What decides a run on a world. It is settled before the run starts: the first pending message within
the budget that carries a marker, or else the budget itself.
-/
namespace MoteBench

open MoteBench.Random Memory Controller

namespace Run

variable {G : Type}

theorem now_perform (r : Run G World) (a : Action) :
    (r.perform a).2.sim.now = r.sim.now := by
  cases a with
  | armTimeout after =>
    have hworld : (r.perform (.armTimeout after)).2.sim =
        (r.sim.respond (r.sim.armTimeout after)).2 := by
      simp only [perform, Simulator.armTimeout]
      cases r.sim.armTimeout after <;> rfl
    rw [hworld]
    cases ha : r.sim.armTimeout after with
    | error cause => rfl
    | ok w =>
      obtain rfl := World.armTimeout_eq_ok ha
      rfl
  | log severity line => rfl
  | broadcast bindings => rfl
  | generate delay payload => rfl
  | finish v => rfl

theorem now_performAll (actions : List Action) (r : Run G World) :
    (performAll actions r).2.sim.now = r.sim.now :=
  performAll_induction (P := fun s : Run G World => s.sim.now = r.sim.now)
    (fun a _ s h => (now_perform s a).trans h) rfl

/-- A world refuses nothing but a timeout. -/
theorem perform_ok {a : Action} (h : a.budget? = none) (r : Run G World) :
    (r.perform a).1 = .ok () := by
  cases a with
  | armTimeout after => cases h
  | _ => rfl

theorem perform_armTimeout {r : Run G World} {after : Span} {w : World}
    (h : r.sim.armTimeout after = .ok w) :
    (r.perform (.armTimeout after)).1 = .ok () ∧ (r.perform (.armTimeout after)).2.sim = w := by
  simp [perform, Simulator.armTimeout, h, World.settle]

theorem performAll_ok {actions : List Action} (h : ∀ a ∈ actions, a.budget? = none)
    (r : Run G World) : (performAll actions r).1 = .ok () :=
  performAll_of_forall (fun a ha s => perform_ok (h a ha) s) r

/-- The run goes on towards the entry `p`, which is due at `due`. -/
structure LeadsTo (r : Run G World) (plan : Plan) (due : Instant) (p : Pending) (count : Nat) :
    Prop where
  plan_eq : r.controller.plan = plan
  running : r.controller.stage = .running
  timely : r.sim.Timely
  docket : r.sim.docket.LeadsTo plan due p count

variable {r : Run G World} {plan : Plan} {due : Instant} {p : Pending} {count : Nat}

theorem LeadsTo.performAll (h : r.LeadsTo plan due p count)
    (hcue : ∀ cycle ∈ plan.resetCycle, plan.decides cycle.cue = false) {actions : List Action}
    (hprogress : ∀ a ∈ actions, a.isProgress)
    (hasked : ∀ delay payload, .generate delay payload ∈ actions →
      ∃ cycle ∈ plan.resetCycle, payload = cycle.cue) :
    (Run.performAll actions r).2.LeadsTo plan due p count := by
  refine performAll_induction (P := (·.LeadsTo plan due p count)) (fun a ha s hs => ?_) h
  cases a with
  | armTimeout after => cases hprogress _ ha
  | finish v => cases hprogress _ ha
  | log severity line => exact ⟨hs.plan_eq, hs.running, hs.timely, hs.docket⟩
  | broadcast bindings =>
    exact ⟨hs.plan_eq, hs.running, hs.timely, ⟨hs.docket.ends, hs.docket.armed, hs.docket.first⟩⟩
  | generate delay payload =>
    obtain ⟨cycle, hcycle, rfl⟩ := hasked delay payload ha
    refine ⟨hs.plan_eq, hs.running, hs.timely.serve (.generate delay cycle.cue), ?_⟩
    exact (s.sim.docket_generate delay cycle.cue).symm ▸
      hs.docket.generate hcycle (hcue cycle hcycle) delay

variable [WordSource G]

/-- A message of no consequence is answered, and the run goes on as before. -/
theorem LeadsTo.step_message (h : r.LeadsTo plan due p count)
    (hcue : ∀ cycle ∈ plan.resetCycle, plan.decides cycle.cue = false) {m : Message}
    (hm : plan.decides m.text = false) :
    (r.step (Delivery.message m).toEvent).1 = .ok none ∧
      (r.step (Delivery.message m).toEvent).2.LeadsTo plan due p count := by
  have hc := continues_onMessage h.running (h.plan_eq.symm ▸ hm)
  have hok := performAll_ok (fun a ha => Action.budget?_of_isProgress (hc.progress a ha))
    (r.adopt (r.controller.onMessage m))
  have hadopt : (r.adopt (r.controller.onMessage m)).LeadsTo plan due p count :=
    ⟨hc.plan.trans h.plan_eq, hc.stage, h.timely, h.docket⟩
  rw [Delivery.toEvent, step_of_handle (handle_message h.running m), hok,
    verdicts_eq_nil_of_isProgress hc.progress]
  refine ⟨rfl, hadopt.performAll hcue hc.progress fun delay payload ha => ?_⟩
  rw [← h.plan_eq]
  exact hc.cue delay payload ha

/-- The entry that ends the run brings its verdict, at once. -/
theorem step_of_endsWith (due : Instant) (hplan : r.controller.plan = plan)
    (hs : r.controller.stage = .running) (hp : plan.endsWith p) :
    (r.step (p.delivery due).toEvent).1 = .ok (some (plan.verdictOf due p)) ∧
      (r.step (p.delivery due).toEvent).2.sim.now = r.sim.now := by
  have hreaction : ∃ reaction, r.controller.handle (p.delivery due).toEvent = .ok reaction ∧
      Reaction.Ends r.controller reaction (plan.verdictOf due p) := by
    subst hplan
    cases p with
    | message source text => exact ⟨_, handle_message hs _, ends_onMessage hp⟩
    | timeout => exact ⟨_, handle_timeout hs due, ends_onTimeout r.controller due⟩
  obtain ⟨reaction, hhandle, hends⟩ := hreaction
  rw [step_of_handle hhandle, performAll_ok hends.budget?, verdicts_of_ends hends]
  exact ⟨rfl, now_performAll reaction.actions _⟩

/-- The run comes to the entry that ends it, unless it comes to the limit before. -/
theorem LeadsTo.proceedPlainly {r : Run G World} {count : Nat} (h : r.LeadsTo plan due p count)
    (hcue : ∀ cycle ∈ plan.resetCycle, plan.decides cycle.cue = false) (c : Cursor) :
    (∃ report, (r.proceedPlainly c).result = .ok report ∧
      report.verdict = plan.verdictOf due p ∧ report.endedAt = due ∧
      (plan.resetCycle = none → report.eventsDelivered = c.delivered + count + 1 ∧
        c.delivered + count < c.limit)) ∨
    ∃ now, (r.proceedPlainly c).result = .error (.wait (.limitReached c.limit now)) ∧
      (plan.resetCycle = none → c.limit ≤ c.delivered + count) := by
  -- On the deliveries that the limit leaves. Cues that are asked for on the way may delay the
  -- entry, so `count` is kept only without a reset cycle.
  rcases Nat.lt_or_ge c.delivered c.limit with hlimit | hlimit
  · obtain ⟨hdelivery, hdocket⟩ := Prod.mk.inj (World.docket_next h.timely)
    let taken : Run G World := { r with sim := r.sim.next.2 }
    have hnext (d : Delivery) (hd : (r.sim.docket.take r.sim.docket.entries).1 = some d) :
        Simulator.next r.sim = (some d, taken.sim) := Prod.ext (hdelivery.trans hd) rfl
    rcases h.docket.take with ⟨hd, hnow, hcount⟩ | ⟨m, count', hd, hm, hleads, hcount⟩
    · obtain ⟨hverdict, hclock⟩ :=
        step_of_endsWith (r := taken) due h.plan_eq h.running h.docket.ends
      rw [proceedPlainly_of_next hlimit (hnext _ hd), resume_of_verdict hverdict]
      have hdue : taken.sim.now = due := (congrArg Docket.now hdocket).trans hnow
      refine .inl ⟨_, rfl, rfl, hclock.trans hdue, fun hnone => ?_⟩
      rw [hcount hnone]
      exact ⟨rfl, hlimit⟩
    · have htaken : taken.LeadsTo plan due p count' :=
        ⟨h.plan_eq, h.running, h.timely.next, hdocket ▸ hleads⟩
      obtain ⟨hnone, hafter⟩ := htaken.step_message hcue hm
      rw [proceedPlainly_of_next hlimit (hnext _ hd), resume_of_none hnone]
      rcases hafter.proceedPlainly hcue { c with delivered := c.delivered + 1 } with
        ⟨report, hok, hverdict, hended, hevents⟩ | ⟨now, herror, hevents⟩
      · refine .inl ⟨report, hok, hverdict, hended, fun hcycle => ?_⟩
        have hrest := hevents hcycle
        rw [hcount hcycle]
        dsimp only at hrest
        omega
      · refine .inr ⟨now, herror, fun hcycle => ?_⟩
        have hrest := hevents hcycle
        rw [hcount hcycle]
        dsimp only at hrest
        omega
  · refine .inr ⟨r.sim.now, ?_, fun _ => Nat.le_add_right_of_le hlimit⟩
    rw [proceedPlainly_of_limit hlimit]
    rfl
termination_by c.remaining
decreasing_by
  simp only [Cursor.remaining]
  omega

/-- A start that arms the timeout goes on to sets and cues, and brings no verdict. -/
theorem step_start_of_armTimeout {r : Run G World} (hs : r.controller.stage = .armed) {w : World}
    (h : r.sim.armTimeout r.controller.plan.budget = .ok w) :
    ∃ (begun : Run G World) (rest : List Action),
      begun.controller = (r.controller.start r.sim.now).controller ∧ begun.sim = w ∧
      (∀ a ∈ rest, a.isProgress) ∧
      (∀ delay payload, .generate delay payload ∈ rest →
        ∃ cycle ∈ r.controller.plan.resetCycle, payload = cycle.cue) ∧
      r.step (.start r.sim.now) = (.ok none, (performAll rest begun).2) := by
  obtain ⟨rest, heq, hprogress, hasked⟩ := actions_start r.controller r.sim.now
  let opened : Run G World := ((r.adopt (r.controller.start r.sim.now)).perform
    (.log .info (startingLine r.controller.plan r.sim.now))).2
  obtain ⟨hok, hworld⟩ := perform_armTimeout (r := opened) h
  refine ⟨_, rest, controller_perform opened (.armTimeout r.controller.plan.budget), hworld,
    hprogress, hasked, ?_⟩
  rw [step_of_handle (handle_start hs _), verdicts_start, heq, performAll_cons_of_ok rfl,
    performAll_cons_of_ok hok,
    performAll_ok fun a ha => Action.budget?_of_isProgress (hprogress a ha)]
  rfl

/-- The start of a run settles how it will end. -/
theorem leadsTo_step_start {r : Run G World} (hs : r.controller.stage = .armed)
    (htimely : r.sim.Timely) (htimeout : r.sim.timeout = .disarmed)
    (hnone : ∀ e ∈ r.sim.docket.entries, e.2 ≠ .timeout) (hplan : r.controller.plan = plan)
    (hcue : ∀ cycle ∈ plan.resetCycle, plan.decides cycle.cue = false) :
    (r.step (.start r.sim.now)).1 = .ok none ∧ (r.step (.start r.sim.now)).2.LeadsTo plan
      (r.sim.ending plan).1 (r.sim.ending plan).2 (r.sim.undecided plan).length := by
  subst hplan
  obtain ⟨begun, rest, hcontroller, hworld, hprogress, hasked, heq⟩ :=
    step_start_of_armTimeout hs (World.armTimeout_of_disarmed htimeout _)
  have hbegun : begun.LeadsTo r.controller.plan (r.sim.ending r.controller.plan).1
      (r.sim.ending r.controller.plan).2 (r.sim.undecided r.controller.plan).length := by
    refine ⟨by rw [hcontroller]; rfl, by rw [hcontroller]; rfl, ?_, ?_⟩
    · rw [hworld]
      exact htimely.put (Instant.le_add _ _) .timeout
    · rw [hworld]
      exact World.leadsTo_armed hnone r.controller.plan
  rw [heq]
  exact ⟨rfl, hbegun.performAll hcue hprogress hasked⟩

end Run

/-- The report tells what decided a run of `plan` on `w`: a message, or that there was none within
the budget. -/
structure Report.DecidedBy (report : Report) (w : World) (plan : Plan) : Prop where
  decision : match w.decider? plan with
    | some m => report.verdict = verdictOn plan m ∧ report.endedAt = m.time
    | none => report.verdict = verdictAt plan (w.now + plan.budget) ∧
        report.endedAt = w.now + plan.budget
  events : plan.resetCycle = none → report.eventsDelivered = (w.undecided plan).length + 1

theorem Report.decidedBy {report : Report} {w : World} {plan : Plan}
    (hverdict : report.verdict = plan.verdictOf (w.ending plan).1 (w.ending plan).2)
    (hended : report.endedAt = (w.ending plan).1)
    (hevents : plan.resetCycle = none → report.eventsDelivered = (w.undecided plan).length + 1) :
    report.DecidedBy w plan := by
  refine ⟨?_, hevents⟩
  have hending : w.ending plan =
      ((w.decider? plan).map (·.entry)).getD (w.now + plan.budget, .timeout) := rfl
  cases hm : w.decider? plan with
  | none =>
    rw [hending, hm] at hverdict hended
    exact ⟨hverdict, hended⟩
  | some m =>
    rw [hending, hm] at hverdict hended
    exact ⟨hverdict, hended⟩

/-- A world whose timeout was never armed decides every run of a plan whose cue is no marker, unless
the run comes to its limit. Without a reset cycle it is also settled how many deliveries it takes. -/
theorem run_decided {w : World} (hw : w.Reachable) (htimeout : w.timeout = .disarmed) {plan : Plan}
    (hcue : ∀ cycle ∈ plan.resetCycle, plan.decides cycle.cue = false) (limit : Nat) :
    let outcome : Outcome World World.Refusal := plan.run w { limit }
    (∀ report, outcome.result = .ok report → report.DecidedBy w plan) ∧
      (∀ cause, outcome.result = .error cause → ∃ now, cause = .wait (.limitReached limit now)) ∧
      (plan.resetCycle = none → (outcome.result.isOk ↔ (w.undecided plan).length < limit)) := by
  let c : Controller KeyStream := .ofSeed plan w.seed
  let r : Run KeyStream World := { controller := c, sim := w }
  obtain ⟨hnone, hleads⟩ := Run.leadsTo_step_start (r := r) rfl hw.timely htimeout
    (hw.untimed htimeout) (show c.plan = plan from rfl) hcue
  have hresult : (plan.run w { limit } : Outcome World World.Refusal).result =
      ((r.step (.start w.now)).2.proceedPlainly { limit }).result := by
    refine (c.run_agrees_runPlainly rfl w { limit }).result.trans ?_
    rw [Controller.runPlainly]
    exact congrArg Outcome.result (Run.resume_of_none hnone)
  dsimp only
  rw [hresult]
  rcases hleads.proceedPlainly hcue { limit } with
    ⟨report, hok, hverdict, hended, hevents⟩ | ⟨now, herror, hevents⟩
  · refine ⟨fun report' h => ?_, fun cause h => ?_, fun hcycle => ?_⟩
    · obtain rfl := Except.ok.inj (hok.symm.trans h)
      apply Report.decidedBy hverdict hended
      intro hcycle
      rw [(hevents hcycle).1, Nat.zero_add]
    · cases hok.symm.trans h
    · have hcount := (hevents hcycle).2
      rw [Nat.zero_add] at hcount
      rw [hok]
      exact iff_of_true rfl hcount
  · refine ⟨fun report' h => ?_, fun cause h => ?_, fun hcycle => ?_⟩
    · cases herror.symm.trans h
    · exact ⟨now, (Except.error.inj (herror.symm.trans h)).symm⟩
    · have hcount := hevents hcycle
      rw [Nat.zero_add] at hcount
      rw [herror]
      exact iff_of_false Bool.false_ne_true (Nat.not_lt_of_le hcount)

/-- A failure that is due with the timeout still comes before it. -/
theorem run_decided_at_deadline :
    let plan : Plan := { budget := .ofMillis 5 }
    let w := ((World.withMotes 7 1).serve (.print (.ofMillis 5) 1 "an ERROR here")).2
    w.Reachable ∧ w.timeout = .disarmed ∧
      ∃ report, (plan.run w { limit := 1 } : Outcome World World.Refusal).result = .ok report ∧
        report.verdict = .fail "5000:1:an ERROR here" ∧ report.endedAt = .ofMillis 5 ∧
        report.eventsDelivered = 1 := by
  intro plan w
  have hw : w.Reachable := .serve (.start 7 1 (by decide)) _
  have hearly : w.early plan = [⟨.ofMillis 5, .mote 1, "an ERROR here"⟩] := by decide +kernel
  have hfails : plan.fails "an ERROR here" = true := by decide +kernel
  have hdecides : plan.decides "an ERROR here" = true := by rw [Plan.decides, hfails, Bool.true_or]
  have hdecider : w.decider? plan = some ⟨.ofMillis 5, .mote 1, "an ERROR here"⟩ := by
    simp [World.decider?, hearly, hdecides]
  have hundecided : w.undecided plan = [] := by simp [World.undecided, hearly, hdecides]
  have hcue : ∀ cycle ∈ plan.resetCycle, plan.decides cycle.cue = false := by simp [plan]
  obtain ⟨hdecided, -, hlimit⟩ := run_decided hw rfl hcue 1
  rw [hundecided] at hlimit
  cases hresult : (plan.run w { limit := 1 } : Outcome World World.Refusal).result with
  | error cause =>
    rw [hresult] at hlimit
    cases (hlimit rfl).2 Nat.one_pos
  | ok report =>
    obtain ⟨hdecision, hevents⟩ := hdecided report hresult
    rw [hdecider] at hdecision
    rw [hundecided] at hevents
    have hverdict : verdictOn plan ⟨.ofMillis 5, .mote 1, "an ERROR here"⟩ =
        .fail "5000:1:an ERROR here" := by
      rw [verdictOn, if_pos hfails]
      decide +kernel
    exact ⟨hw, rfl, report, rfl, hdecision.1.trans hverdict, hdecision.2, hevents rfl⟩

end MoteBench
