import MoteBench.Proofs.Run.Recorded

/-!
The report of a run is the controller's own account: what the controller asks for when it is told
the same events again. The main statement joins this with the freedom to drop messages in a wait.
-/
namespace MoteBench

open MoteBench.Random Memory Controller

/-- The report says what the controller `c` asks for when it is told `events`, none of which it
refuses. -/
structure Report.Recounts {G : Type} [WordSource G] (report : Report) (c : Controller G)
    (events : List Event) : Prop where
  accepted : ∀ answer ∈ c.answers events, answer.isOk
  log : report.log = (c.emitted events).filterMap (·.line?)
  broadcasts : report.broadcasts.map (·.bindings) = (c.emitted events).filterMap (·.bindings?)
  verdict : (c.emitted events).getLast? = some (.finish report.verdict)

namespace Run

variable {G σ ν ε : Type} [WordSource G]

/-- The run stands where the controller `c` stands after `events`. -/
structure Recounts (r : Run G σ) (c : Controller G) (events : List Event) : Prop where
  controller : r.controller = c.afterAll events
  accepted : ∀ answer ∈ c.answers events, answer.isOk
  log : r.log.toList = (c.emitted events).filterMap (·.line?)
  broadcasts : r.broadcasts.toList.map (·.bindings) = (c.emitted events).filterMap (·.bindings?)

variable [Node ν] [Simulator σ ν ε] {c : Controller G} {events : List Event}

theorem Recounts.step {r : Run G σ} (h : r.Recounts c events) {e : Event} {v? : Option Verdict}
    (hv : (r.step e).1 = .ok v?) : (r.step e).2.Recounts c (events ++ [e]) := by
  obtain ⟨actions, hanswer, -, hlog, hbroadcasts⟩ := step_eq_ok hv
  rw [h.controller] at hanswer
  have hemits : c.emitted (events ++ [e]) = c.emitted events ++ actions := by
    rw [emitted_append, emitted_cons, emits, hanswer, emitted_nil, List.append_nil]
    rfl
  constructor
  case controller =>
    rw [controller_step, h.controller, afterAll_append, afterAll_cons, afterAll_nil]
  case accepted =>
    intro answer hmem
    rw [answers_append, answers, answers, hanswer] at hmem
    rcases List.mem_append.mp hmem with hmem | hmem
    · exact h.accepted answer hmem
    · obtain rfl := List.mem_singleton.mp hmem
      rfl
  case log => rw [hlog, h.log, hemits, List.filterMap_append]
  case broadcasts => rw [hbroadcasts, h.broadcasts, hemits, List.filterMap_append]

/-- The verdict that an answer brings is the last thing it asks for. -/
theorem getLast?_of_verdict {d : Controller G} (hs : d.stage = .running) {e : Event}
    {reaction : Reaction G} (h : d.handle e = .ok reaction) {v : Verdict}
    (hv : (reaction.actions.filterMap (·.verdict?)).getLast? = some v) :
    reaction.actions.getLast? = some (.finish v) := by
  rcases handle_of_running hs h with hc | ⟨w, hw⟩
  · simp [verdicts_eq_nil_of_isProgress hc.progress] at hv
  · obtain ⟨evidence, heq, -⟩ := hw.actions
    rw [verdicts_of_ends hw] at hv
    obtain rfl := Option.some.inj hv
    rw [heq, List.getLast?_append]
    rfl

/-- The event that brings a verdict makes the controller ask for the end. -/
theorem Recounts.report {r : Run G σ} (h : r.Recounts c events) (hs : r.controller.stage = .running)
    {e : Event} {v : Verdict} (hv : (r.step e).1 = .ok (some v)) {report : Report} {cursor : Cursor}
    (hreport : ((r.step e).2.close cursor v : Outcome σ ε).result = .ok report) :
    report.Recounts c (events ++ [e]) ∧ report.eventsDelivered = cursor.delivered := by
  have hnext := h.step hv
  obtain ⟨actions, hanswer, hverdict, -, -⟩ := step_eq_ok hv
  obtain ⟨reaction, hhandle, rfl⟩ := handle_of_answer_ok hanswer
  obtain rfl := Except.ok.inj hreport
  refine ⟨⟨hnext.accepted, hnext.log, hnext.broadcasts, ?_⟩, rfl⟩
  have hlast := getLast?_of_verdict hs hhandle hverdict.symm
  rw [h.controller] at hhandle
  rw [emitted_append, emitted_cons, emits_of_handle hhandle, emitted_nil, List.append_nil,
    List.getLast?_append, hlast]
  rfl

omit [WordSource G] in
/-- No answer to an event takes a delivery from the simulation. -/
theorem answers_performAll (actions : List Action) (r : Run G (Recorded σ)) :
    (performAll actions r).2.sim.answers = r.sim.answers :=
  performAll_induction (P := fun s : Run G (Recorded σ) => s.sim.answers = r.sim.answers)
    (fun a _ s h => by cases a <;> exact h) rfl

theorem answers_step (r : Run G (Recorded σ)) (e : Event) :
    (r.step e).2.sim.answers = r.sim.answers := by
  cases hr : r.controller.handle e with
  | error cause => rw [step_of_refused hr]
  | ok reaction =>
    rw [step_of_handle hr]
    exact answers_performAll _ _

end Run

/-- A delivery that was taken is the last answer on record. -/
theorem Cursor.answers_awaitNext {σ ν ε : Type} [Simulator σ ν ε] {c : Cursor} {s : Recorded σ}
    {d : Delivery} (h : (c.awaitNext s).outcome = .ok d) :
    (c.awaitNext s).sim.answers = s.answers ++ [some d] :=
  Recorded.answers_of_next (next_of_awaitNext h)

namespace Run

variable {G σ ν ε : Type} [WordSource G] [Node ν] [Simulator σ ν ε]

/-- From a point that an account has reached, the account goes on to the report. -/
theorem Recounts.proceedPlainly {c : Controller G} {events : List Event} {r : Run G (Recorded σ)}
    (h : r.Recounts c events) (hs : r.controller.stage = .running) {cursor : Cursor}
    {report : Report} (hreport : (r.proceedPlainly cursor).result = .ok report) :
    ∃ pulled : List Delivery,
      (r.proceedPlainly cursor).sim.answers = r.sim.answers ++ pulled.map some ∧
      report.eventsDelivered = cursor.delivered + pulled.length ∧
      report.Recounts c (events ++ pulled.map Delivery.toEvent) := by
  obtain ⟨d, ho, hnext⟩ := proceedPlainly_eq_ok hreport
  let taken : Run G (Recorded σ) := { r with sim := (cursor.awaitNext r.sim).sim }
  have htaken : taken.Recounts c events := ⟨h.controller, h.accepted, h.log, h.broadcasts⟩
  have hdelivered : (cursor.awaitNext r.sim).cursor.delivered = cursor.delivered + 1 := by
    rw [(Cursor.cursor_awaitNext ho).2]
  have hanswers : (taken.step d.toEvent).2.sim.answers = r.sim.answers ++ [some d] :=
    (answers_step taken d.toEvent).trans (Cursor.answers_awaitNext ho)
  rcases hnext with ⟨v, hv, heq⟩ | ⟨hnone, heq⟩
  · obtain ⟨hrecounts, hcount⟩ := htaken.report hs hv (heq ▸ hreport)
    exact ⟨[d], heq ▸ hanswers, hcount.trans hdelivered, hrecounts⟩
  · have := Cursor.remaining_awaitNext ho
    obtain ⟨pulled, htotal, hcount, hrecounts⟩ :=
      (htaken.step hnone).proceedPlainly (stage_step (r := taken) hs hnone) (heq ▸ hreport)
    refine ⟨d :: pulled, ?_, ?_, ?_⟩
    · rw [heq, htotal, hanswers, List.append_assoc]
      rfl
    · rw [hcount, hdelivered, List.length_cons]
      omega
    · rwa [List.append_assoc] at hrecounts
termination_by cursor.remaining

end Run

section Start

variable {G σ ν ε : Type} [WordSource G] [Node ν] [Simulator σ ν ε]

/-- The account of a run from its start. -/
theorem Controller.recounts_runPlainly {c : Controller G} (hs : c.stage = .armed) {sim : σ}
    {cursor : Cursor} {report : Report}
    (h : (c.runPlainly ({ sim } : Recorded σ) cursor).result = .ok report) :
    ∃ pulled : List Delivery,
      (c.runPlainly ({ sim } : Recorded σ) cursor).sim.answers = pulled.map some ∧
      report.eventsDelivered = cursor.delivered + pulled.length ∧
      report.Recounts c (.start (Simulator.now sim) :: pulled.map Delivery.toEvent) := by
  let r : Run G (Recorded σ) := { controller := c, sim := { sim } }
  have hfresh : r.Recounts c [] := ⟨rfl, by simp [answers], rfl, rfl⟩
  have hsilent := Run.answers_step r (.start (Simulator.now sim))
  obtain ⟨hnone, heq⟩ := runPlainly_eq_ok hs h
  rw [heq] at h ⊢
  obtain ⟨pulled, hanswers, hcount, hrecounts⟩ :=
    (hfresh.step hnone).proceedPlainly (Run.stage_step_start hs _) h
  exact ⟨pulled, hanswers.trans (congrArg (· ++ pulled.map some) hsilent), hcount, hrecounts⟩

/-- Neither the record nor the messages that are dropped make a difference to the result. -/
theorem Controller.result_recorded {c : Controller G} (hs : c.stage = .armed) (sim : σ)
    (cursor : Cursor) :
    (c.runPlainly ({ sim } : Recorded σ) cursor).result = (c.run sim cursor).result := by
  have hagrees := c.run_agrees_runPlainly hs ({ sim } : Recorded σ) cursor
  have hforget := c.run_map Recorded.hom ({ sim } : Recorded σ) cursor
  exact hagrees.result.symm.trans (congrArg Outcome.result hforget).symm

theorem Controller.recounts_run {c : Controller G} (hs : c.stage = .armed) {sim : σ}
    {cursor : Cursor} {report : Report} (h : (c.run sim cursor).result = .ok report) :
    ∃ pulled : List Delivery,
      (c.run ({ sim } : Recorded σ) cursor).sim.answers = pulled.map some ∧
      report.eventsDelivered = cursor.delivered + pulled.length ∧
      report.Recounts c (.start (Simulator.now sim) :: pulled.map Delivery.toEvent) := by
  rw [(c.run_agrees_runPlainly hs ({ sim } : Recorded σ) cursor).sim]
  exact recounts_runPlainly hs ((result_recorded hs sim cursor).trans h)

end Start

/-- To drop messages in a wait makes no difference to the result of a run, to the simulation or to
the answers taken from it. The report recounts the start and the deliveries taken. -/
theorem run_eq_runPlainly {G σ ν ε : Type} [WordSource G] [Node ν] [Simulator σ ν ε] (plan : Plan)
    (ports : Port.Allocator G) (limit : Nat) (sim : σ) :
    let c : Controller G := { plan, ports }
    let selective : Outcome σ ε := c.run sim { limit }
    let plain : Outcome σ ε := c.runPlainly sim { limit }
    let recorded : Outcome (Recorded σ) ε := c.run { sim } { limit }
    let plainRecorded : Outcome (Recorded σ) ε := c.runPlainly { sim } { limit }
    selective.result = plain.result ∧ selective.sim = plain.sim ∧
      recorded.sim.answers = plainRecorded.sim.answers ∧
      recorded.map Recorded.sim = selective ∧ (plainRecorded.map Recorded.sim).Agrees plain ∧
      ∀ report, selective.result = .ok report → ∃ pulled : List Delivery,
        recorded.sim.answers = pulled.map some ∧ report.eventsDelivered = pulled.length ∧
        report.Recounts c (.start (Simulator.now sim) :: pulled.map Delivery.toEvent) := by
  have hs : ({ plan, ports } : Controller G).stage = .armed := rfl
  generalize ({ plan, ports } : Controller G) = c at hs ⊢
  have hagrees := c.run_agrees_runPlainly hs sim { limit }
  have hrecorded := c.run_agrees_runPlainly hs ({ sim } : Recorded σ) { limit }
  have hforget := c.run_map Recorded.hom ({ sim } : Recorded σ) { limit }
  refine ⟨hagrees.result, hagrees.sim, congrArg Recorded.answers hrecorded.sim, hforget.symm, ?_,
    fun report h => ?_⟩
  · exact (hforget ▸ hrecorded.symm.map Recorded.sim).trans hagrees
  · obtain ⟨pulled, hanswers, hcount, hrecounts⟩ := Controller.recounts_run hs h
    exact ⟨pulled, hanswers, hcount.trans (Nat.zero_add _), hrecounts⟩

end MoteBench
