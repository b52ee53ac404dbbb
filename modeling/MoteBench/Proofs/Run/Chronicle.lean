import MoteBench.Proofs.Controller.Replay
import MoteBench.Proofs.Run.Decision

/-!
A run without a reset cycle, from its first delivery to its last. Every message with the phase marker
that comes up before anything decides has new ports broadcast and announced, and nothing else has; the
record of broadcasts and the log can be told from the deliveries and the allocator.
-/
namespace MoteBench

open MoteBench.Random Memory Controller

/-- The line that announces a new phase lists the ports in the order of the parameters. -/
def announcement (bindings : List Binding) : String :=
  "Starting new stream at port " ++ ", ".intercalate (bindings.map (·.value.render))

/-- What a run of `plan` logs last when this is the delivery that ends it. -/
def Plan.lastLines (plan : Plan) : Delivery → List String
  | .message m => if plan.fails m.text then [m.render, "TEST FAILED"] else ["TEST OK"]
  | .timeout now =>
    ["Budget elapsed at " ++ Decimal.twoPlaces now.seconds ++ " s",
      if plan.expiry = .pass then "TEST OK" else "TEST FAILED"]

/-- The records hold one round of ports after the other, as they come from the allocator. -/
def Plan.Rounds {G : Type} [WordSource G] (plan : Plan) (ports : Port.Allocator G)
    (records : List BroadcastRecord) : Prop :=
  ∀ k record, records[k]? = some record → Configures plan.parameters
    ((ports.draws (k * plan.drawnCount)).2.draws plan.drawnCount).1 record.bindings

theorem Plan.Rounds.nil {G : Type} [WordSource G] (plan : Plan) (ports : Port.Allocator G) :
    plan.Rounds ports [] := by
  intro k record hk
  cases hk

theorem Plan.Rounds.cons {G : Type} [WordSource G] {plan : Plan} {ports : Port.Allocator G}
    {record : BroadcastRecord} {records : List BroadcastRecord}
    (hfirst : Configures plan.parameters (ports.draws plan.drawnCount).1 record.bindings)
    (hrest : plan.Rounds (ports.draws plan.drawnCount).2 records) :
    plan.Rounds ports (record :: records) := by
  intro k other hk
  cases k with
  | zero =>
    obtain rfl := Option.some.inj hk
    rwa [Nat.zero_mul, Port.Allocator.draws_zero]
  | succ k =>
    have hsum : (ports.draws ((k + 1) * plan.drawnCount)).2 =
        ((ports.draws plan.drawnCount).2.draws (k * plan.drawnCount)).2 := by
      rw [Nat.succ_mul, Nat.add_comm, Port.Allocator.draws_add]
    rw [hsum]
    exact hrest k other hk

namespace Controller

variable {G : Type}

theorem lines_closing (v : Verdict) :
    (closing v).filterMap (·.line?) = [if v.isSuccess then "TEST OK" else "TEST FAILED"] := by
  unfold closing
  split <;> rfl

theorem cycle?_eq_none {c : Controller G} (h : c.plan.resetCycle = none) : c.cycle? = none := by
  unfold cycle?
  rw [h]

variable [WordSource G]

theorem lines_of_endsWith {c : Controller G} (hs : c.stage = .running) {p : Pending}
    (hp : c.plan.endsWith p) (due : Instant) : ∃ reaction,
      c.handle (p.delivery due).toEvent = .ok reaction ∧
      reaction.actions.filterMap (·.line?) = c.plan.lastLines (p.delivery due) := by
  cases p with
  | timeout =>
    refine ⟨_, handle_timeout hs due, ?_⟩
    have hsuccess : (verdictAt c.plan due).isSuccess = (c.plan.expiry = .pass : Bool) := by
      unfold verdictAt
      cases c.plan.expiry <;> rfl
    have hactions : (c.onTimeout due).actions = [.log .info ("Budget elapsed at " ++
        Decimal.twoPlaces due.seconds ++ " s")] ++ closing (verdictAt c.plan due) := rfl
    rw [hactions, List.filterMap_append, lines_closing, hsuccess]
    simp [Action.line?, Plan.lastLines, Pending.delivery]
  | message source text =>
    refine ⟨_, handle_message hs ⟨due, source, text⟩, ?_⟩
    rw [Pending.delivery, Plan.lastLines]
    cases hf : c.plan.fails text with
    | true =>
      rw [onMessage_of_fails (m := ⟨due, source, text⟩) hf, finish, List.filterMap_append, lines_closing]
      rfl
    | false =>
      have hpass : c.plan.passes text = true := by simpa [Plan.endsWith, Plan.decides, hf] using hp
      rw [onMessage_of_passes (m := ⟨due, source, text⟩) hf hpass, finish, List.filterMap_append,
        lines_closing]
      rfl

/-- A start outside a reset cycle. -/
theorem actions_start_of_none {c : Controller G} (h : c.plan.resetCycle = none) (now : Instant) :
    (c.start now).actions =
      .log .info (startingLine c.plan now) :: .armTimeout c.plan.budget ::
        if c.plan.parameters = [] then [] else [.broadcast (drawPorts c.plan.parameters c.ports).1] := by
  simp only [start, h, isEmpty_drawPorts, Option.toList_none, List.map_nil, List.append_nil,
    List.cons_append, List.nil_append]

theorem actions_restartPhase (c : Controller G) :
    c.restartPhase.actions = [.broadcast (drawPorts c.plan.parameters c.ports).1,
      .log .info (announcement (drawPorts c.plan.parameters c.ports).1)] := rfl

end Controller

namespace Run

variable {G : Type}

/-- The run takes `messages` from a recorded world and then the entry `p`, which ends it at `due`. -/
structure Expects (r : Run G (Recorded World)) (plan : Plan) (messages : List Message)
    (due : Instant) (p : Pending) : Prop where
  plan_eq : r.controller.plan = plan
  uncycled : plan.resetCycle = none
  running : r.controller.stage = .running
  timely : r.sim.sim.Timely
  undecided : ∀ m ∈ messages, plan.decides m.text = false
  ends : plan.endsWith p
  docket : r.sim.sim.docket.Comes messages due p

variable {r : Run G (Recorded World)} {plan : Plan} {messages : List Message} {due : Instant}
  {p : Pending}

theorem Expects.next_nil (h : r.Expects plan [] due p) :
    ∃ sim, Simulator.next r.sim = (some (p.delivery due), sim) ∧
      sim.answers = r.sim.answers ++ [some (p.delivery due)] := by
  obtain ⟨hdelivery, -⟩ := Prod.mk.inj (World.docket_next h.timely)
  rw [h.docket.take_nil] at hdelivery
  have hnext : Simulator.next r.sim = (some (p.delivery due), (Simulator.next r.sim).2) :=
    Prod.ext hdelivery rfl
  exact ⟨_, hnext, Recorded.answers_of_next hnext⟩

theorem Expects.next_cons {m : Message} (h : r.Expects plan (m :: messages) due p) :
    ∃ sim, Simulator.next r.sim = (some (.message m), sim) ∧
      sim.answers = r.sim.answers ++ [some (.message m)] ∧ sim.sim.now = m.time ∧
      ({ r with sim } : Run G (Recorded World)).Expects plan messages due p := by
  obtain ⟨hdelivery, hdocket⟩ := Prod.mk.inj (World.docket_next h.timely)
  obtain ⟨hfirst, hnow, hrest⟩ := h.docket.take_cons
  rw [hfirst] at hdelivery
  have hnext : Simulator.next r.sim = (some (.message m), (Simulator.next r.sim).2) :=
    Prod.ext hdelivery rfl
  refine ⟨_, hnext, Recorded.answers_of_next hnext, (congrArg Docket.now hdocket).trans hnow, ?_⟩
  exact ⟨h.plan_eq, h.uncycled, h.running, h.timely.next,
    (List.forall_mem_cons.mp h.undecided).2, h.ends, hdocket ▸ hrest⟩

variable [WordSource G]

/-- What a message with the phase marker adds to a run. -/
structure Restarts (r s : Run G (Recorded World)) (plan : Plan) (record : BroadcastRecord) : Prop where
  time : record.time = r.sim.sim.now
  ports : Configures plan.parameters (r.controller.ports.draws plan.drawnCount).1 record.bindings
  after : s.controller.ports = (r.controller.ports.draws plan.drawnCount).2
  broadcasts : s.broadcasts.toList = r.broadcasts.toList ++ [record]
  log : s.log.toList = r.log.toList ++ [announcement record.bindings]
  answers : s.sim.answers = r.sim.answers

theorem Expects.step_restart (h : r.Expects plan messages due p) {m : Message}
    (hm : plan.decides m.text = false) (hends : plan.endsPhase m.text = true) :
    (r.step (.message m)).1 = .ok none ∧ (r.step (.message m)).2.Expects plan messages due p ∧
      ∃ record, r.Restarts (r.step (.message m)).2 plan record := by
  obtain ⟨rfl, huncycled, hrunning, htimely, hundecided, hends', hdocket⟩ := h
  have hreaction : r.controller.onMessage m = r.controller.restartPhase := by
    rw [onMessage_of_not_decides (m := m) hm, cycle?_eq_none huncycled]
    exact if_pos hends
  obtain ⟨hconfigures, hports⟩ := configures_drawPorts r.controller.plan.parameters r.controller.ports
  rw [step_of_handle (handle_message hrunning m), hreaction, actions_restartPhase,
    performAll_cons_of_ok rfl, performAll_cons_of_ok rfl]
  refine ⟨rfl, ⟨rfl, huncycled, hrunning, htimely, hundecided, hends',
      ⟨hdocket.entries, hdocket.timeout⟩⟩, ⟨r.sim.sim.now, (drawPorts r.controller.plan.parameters r.controller.ports).1⟩, ?_⟩
  exact ⟨rfl, hconfigures, hports, Array.toList_push .., Array.toList_push .., rfl⟩

theorem Expects.step_silent (h : r.Expects plan messages due p) {m : Message}
    (hm : plan.decides m.text = false) (hends : plan.endsPhase m.text = false) :
    r.step (.message m) = (.ok none, r) := by
  obtain ⟨rfl, huncycled, hrunning, -, -, -, -⟩ := h
  apply step_of_nothing
  rw [handle_message hrunning, onMessage_of_not_decides (m := m) hm, cycle?_eq_none huncycled]
  simp [hends]

/-- The last delivery brings the verdict and the last lines, and has nothing broadcast. -/
theorem Expects.step_last (h : r.Expects plan [] due p) (sim : Recorded World) :
    let taken : Run G (Recorded World) := { r with sim }
    let s := (taken.step (p.delivery due).toEvent).2
    (∃ v, (taken.step (p.delivery due).toEvent).1 = .ok (some v)) ∧
      s.broadcasts = r.broadcasts ∧
      s.log.toList = r.log.toList ++ plan.lastLines (p.delivery due) ∧ s.sim.answers = sim.answers := by
  obtain ⟨rfl, -, hrunning, -, -, hends, -⟩ := h
  intro taken s
  have hverdict : (taken.step (p.delivery due).toEvent).1 =
      .ok (some (r.controller.plan.verdictOf due p)) := by
    have hworld := (step_of_endsWith (r := taken.map Recorded.sim) due rfl hrunning hends).1
    rwa [step_map Recorded.hom] at hworld
  have hdraws : r.controller.draws (p.delivery due).toEvent = false ∧
      r.controller.parks (p.delivery due).toEvent = false := by
    cases p with
    | timeout => exact ⟨rfl, rfl⟩
    | message source text =>
      have hdecides : r.controller.plan.decides text = true := hends
      simp [Pending.delivery, Delivery.toEvent, draws, parks, hdecides]
  obtain ⟨reaction, hhandle, hlines⟩ := lines_of_endsWith hrunning hends due
  obtain ⟨actions, hanswer, -, hlog, -⟩ := step_eq_ok hverdict
  obtain rfl := Except.ok.inj ((answer_of_handle (c := taken.controller) hhandle).symm.trans hanswer)
  exact ⟨⟨_, hverdict⟩, broadcasts_step (r := taken) hdraws.1 hdraws.2, hlines ▸ hlog,
    answers_step taken _⟩

end Run

/-- The report goes on from the run `r`: with a new phase for each of `messages` that has the phase
marker, and then with the lines of the last delivery. -/
structure Report.GoesOn {G σ : Type} [WordSource G] (report : Report) (r : Run G σ) (plan : Plan)
    (messages : List Message) (last : Delivery) : Prop where
  restarts : ∃ restarts : List BroadcastRecord,
    report.broadcasts = r.broadcasts.toList ++ restarts ∧
    restarts.map (·.time) = (messages.filter (plan.endsPhase ·.text)).map (·.time) ∧
    plan.Rounds r.controller.ports restarts ∧
    report.log = r.log.toList ++ restarts.map (announcement ·.bindings) ++ plan.lastLines last

namespace Run

variable {G : Type} [WordSource G] {r : Run G (Recorded World)} {plan : Plan}
  {messages : List Message} {due : Instant} {p : Pending}

theorem Restarts.goesOn {s : Run G (Recorded World)} {record : BroadcastRecord}
    (h : r.Restarts s plan record) {m : Message} (hnow : r.sim.sim.now = m.time)
    (hends : plan.endsPhase m.text = true) {report : Report} {last : Delivery}
    (hreport : report.GoesOn s plan messages last) : report.GoesOn r plan (m :: messages) last := by
  obtain ⟨restarts, hbroadcasts, htimes, hrounds, hlog⟩ := hreport
  refine ⟨record :: restarts, ?_, ?_, .cons h.ports (h.after ▸ hrounds), ?_⟩
  · rw [hbroadcasts, h.broadcasts, List.append_assoc]
    rfl
  · rw [List.map_cons, h.time, hnow, htimes, List.filter_cons_of_pos (by exact hends), List.map_cons]
  · rw [hlog, h.log, List.append_assoc (Array.toList r.log)]
    rfl

/-- A message of no consequence is one record more if it has the phase marker, and else nothing. -/
theorem Expects.step_message (h : r.Expects plan messages due p) {m : Message}
    (hm : plan.decides m.text = false) (hnow : r.sim.sim.now = m.time) :
    let s := (r.step (.message m)).2
    (r.step (.message m)).1 = .ok none ∧ s.Expects plan messages due p ∧
      s.sim.answers = r.sim.answers ∧ ∀ (report : Report) (last : Delivery),
        report.GoesOn s plan messages last → report.GoesOn r plan (m :: messages) last := by
  cases hends : plan.endsPhase m.text with
  | true =>
    obtain ⟨hnone, hafter, record, hrestarts⟩ := h.step_restart hm hends
    exact ⟨hnone, hafter, hrestarts.answers, fun _ _ => hrestarts.goesOn hnow hends⟩
  | false =>
    rw [h.step_silent hm hends]
    refine ⟨rfl, h, rfl, fun report last hreport => ?_⟩
    obtain ⟨restarts, hbroadcasts, htimes, hrounds, hlog⟩ := hreport
    refine ⟨restarts, hbroadcasts, ?_, hrounds, hlog⟩
    rw [htimes, List.filter_cons_of_neg (by simp [hends])]

/-- What is expected is taken, and the report goes on with it. -/
theorem Expects.proceedPlainly (h : r.Expects plan messages due p) {c : Cursor} {report : Report}
    (hok : (r.proceedPlainly c).result = .ok report) :
    (r.proceedPlainly c).sim.answers =
        r.sim.answers ++ (messages.map Delivery.message ++ [p.delivery due]).map some ∧
      report.GoesOn r plan messages (p.delivery due) := by
  induction messages generalizing r c with
  | nil =>
    obtain ⟨sim, hnext, hanswers⟩ := h.next_nil
    obtain ⟨⟨v, hv⟩, hbroadcasts, hlog, hsame⟩ := h.step_last sim
    have hlimit := delivered_lt_limit hok
    rw [proceedPlainly_of_next hlimit hnext, resume_of_verdict hv] at hok ⊢
    obtain rfl := Except.ok.inj hok
    refine ⟨hsame.trans hanswers, [], ?_, rfl, .nil plan _, ?_⟩
    · exact (congrArg Array.toList hbroadcasts).trans (List.append_nil _).symm
    · exact hlog.trans (by rw [List.map_nil, List.append_nil])
  | cons m messages ih =>
    obtain ⟨sim, hnext, hanswers, hnow, htaken⟩ := h.next_cons
    have hm := (List.forall_mem_cons.mp h.undecided).1
    obtain ⟨hnone, hafter, hsame, hgoes⟩ := htaken.step_message hm hnow
    have hlimit := delivered_lt_limit hok
    rw [proceedPlainly_of_next hlimit hnext, Delivery.toEvent, resume_of_none hnone] at hok ⊢
    obtain ⟨hrest, hreport⟩ := ih hafter hok
    refine ⟨?_, ⟨(hgoes report _ hreport).restarts⟩⟩
    rw [hrest, hsame, hanswers, List.append_assoc]
    rfl

omit [WordSource G] in
/-- The first ports are broadcast if the plan has parameters. -/
theorem Expects.performAll_opening {r : Run G (Recorded World)} (h : r.Expects plan messages due p)
    (bindings : List Binding) :
    let opening := if plan.parameters = [] then [] else [Action.broadcast bindings]
    let s := (performAll opening r).2
    (performAll opening r).1 = .ok () ∧ s.Expects plan messages due p ∧
      s.sim.answers = r.sim.answers ∧ s.log = r.log ∧ s.broadcasts.toList = r.broadcasts.toList ++
        if plan.parameters = [] then [] else [⟨r.sim.sim.now, bindings⟩] := by
  dsimp only
  split
  · exact ⟨rfl, h, rfl, rfl, (List.append_nil _).symm⟩
  · refine ⟨rfl, ⟨h.plan_eq, h.uncycled, h.running, h.timely, h.undecided, h.ends,
      ⟨h.docket.entries, h.docket.timeout⟩⟩, rfl, rfl, Array.toList_push ..⟩

/-- The start of a run on a world whose timeout was never armed. -/
theorem expects_step_start {r : Run G (Recorded World)} (hs : r.controller.stage = .armed)
    (hplan : r.controller.plan = plan) (huncycled : plan.resetCycle = none) {w : World}
    (hworld : r.sim.sim = w) (htimely : w.Timely) (htimeout : w.timeout = .disarmed)
    (huntimed : ∀ e ∈ w.docket.entries, e.2 ≠ .timeout) :
    let s := (r.step (.start w.now)).2
    (r.step (.start w.now)).1 = .ok none ∧
      s.Expects plan (w.undecided plan) (w.ending plan).1 (w.ending plan).2 ∧
      s.sim.answers = r.sim.answers ∧ s.log.toList = r.log.toList ++ [startingLine plan w.now] ∧
      ∃ opening : List BroadcastRecord, s.broadcasts.toList = r.broadcasts.toList ++ opening ∧
        opening.map (·.time) = (if plan.parameters = [] then [] else [w.now]) ∧
        ∀ restarts, plan.Rounds s.controller.ports restarts →
          plan.Rounds r.controller.ports (opening ++ restarts) := by
  -- The first line and the timeout come before the first ports, so that the ports are broadcast by a
  -- run that expects already what it will take.
  subst hplan hworld
  let w := r.sim.sim
  let plan := r.controller.plan
  obtain ⟨hconfigures, hports⟩ := configures_drawPorts plan.parameters r.controller.ports
  let opened : Run G (Recorded World) := ((r.adopt (r.controller.start w.now)).perform
    (.log .info (startingLine plan w.now))).2
  let begun : Run G (Recorded World) := (opened.perform (.armTimeout plan.budget)).2
  let armed : World := { w.put (w.now + plan.budget) .timeout with
    timeout := .armed (w.now + plan.budget) }
  have harm : (opened.perform (.armTimeout plan.budget)).1 = .ok () ∧ begun.sim.sim = armed := by
    have hworld : opened.sim.sim.armTimeout plan.budget = .ok armed :=
      World.armTimeout_of_disarmed htimeout plan.budget
    simp [begun, perform, Simulator.armTimeout, hworld, World.settle]
  have hbegun : begun.Expects plan (w.undecided plan) (w.ending plan).1 (w.ending plan).2 := by
    refine ⟨rfl, huncycled, rfl, ?_, fun m hm => World.undecided_of_mem hm,
      plan.endsWith_decisive _ _, ?_⟩
    · rw [harm.2]
      exact htimely.put (Instant.le_add _ _) .timeout
    · rw [harm.2]
      exact World.comes_armed huntimed plan
  rw [step_of_handle (handle_start hs _), verdicts_start, actions_start_of_none huncycled,
    performAll_cons_of_ok rfl, performAll_cons_of_ok harm.1]
  let bindings := (drawPorts plan.parameters r.controller.ports).1
  obtain ⟨hok, hexpects, hanswers, hlog, hbroadcasts⟩ := hbegun.performAll_opening bindings
  have hcontroller := controller_performAll
    (if plan.parameters = [] then [] else [Action.broadcast bindings]) begun
  have hnow : begun.sim.sim.now = w.now := by rw [harm.2]; rfl
  refine ⟨?_, hexpects, hanswers, ?_, _, hbroadcasts, ?_, fun restarts hrestarts => ?_⟩
  · exact congrArg (fun answer : Except World.Refusal Unit =>
      (answer.mapError RunError.simulator).map fun _ => (none : Option Verdict)) hok
  · exact (congrArg Array.toList hlog).trans (Array.toList_push ..)
  · rw [hnow]
    split <;> rfl
  · have hafter : plan.Rounds (r.controller.ports.draws plan.drawnCount).2 restarts := by
      have hsame := (congrArg (·.ports) hcontroller).trans hports
      exact hsame ▸ hrestarts
    split
    · rename_i hnone
      have hzero : plan.drawnCount = 0 := by rw [Plan.drawnCount, hnone, List.countP_nil]
      rwa [hzero] at hafter
    · exact .cons hconfigures hafter

end Run

/-- The delivery that ends a run of `plan` which starts on `w`. -/
def World.lastDelivery (w : World) (plan : Plan) : Delivery :=
  (w.ending plan).2.delivery (w.ending plan).1

/-- The report of a run of `plan` on `w`, told from what the world delivers and from the allocator. -/
structure Report.Chronicles {G : Type} [WordSource G] (report : Report) (w : World) (plan : Plan)
    (ports : Port.Allocator G) : Prop where
  /-- The start has its ports on record, if it has any, and each message that begins a phase has its
  own, which its line lists. -/
  records : ∃ opening restarts : List BroadcastRecord,
    report.broadcasts = opening ++ restarts ∧
    opening.map (·.time) = (if plan.parameters = [] then [] else [w.now]) ∧
    restarts.map (·.time) = ((w.undecided plan).filter (plan.endsPhase ·.text)).map (·.time) ∧
    report.log = startingLine plan w.now :: restarts.map (announcement ·.bindings) ++
      plan.lastLines (w.lastDelivery plan)
  rounds : plan.Rounds ports report.broadcasts

theorem Controller.chronicles_runPlainly {G : Type} [WordSource G] {c : Controller G}
    (hs : c.stage = .armed) (huncycled : c.plan.resetCycle = none) {w : World} (hw : w.Reachable)
    (htimeout : w.timeout = .disarmed) {cursor : Cursor} {report : Report}
    (h : (c.runPlainly ({ sim := w } : Recorded World) cursor).result = .ok report) :
    (c.runPlainly ({ sim := w } : Recorded World) cursor).sim.answers =
        ((w.undecided c.plan).map Delivery.message ++ [w.lastDelivery c.plan]).map some ∧
      report.Chronicles w c.plan c.ports := by
  let r : Run G (Recorded World) := { controller := c, sim := { sim := w } }
  obtain ⟨-, hexpects, hanswers, hlog, opening, hbroadcasts, htimes, hrounds⟩ :=
    Run.expects_step_start (r := r) hs rfl huncycled rfl hw.timely htimeout (hw.untimed htimeout)
  obtain ⟨-, heq⟩ := runPlainly_eq_ok hs h
  rw [heq] at h ⊢
  obtain ⟨htaken, restarts, hall, hphases, hrest, hlines⟩ := hexpects.proceedPlainly h
  have hrecords : report.broadcasts = opening ++ restarts :=
    hall.trans (congrArg (· ++ restarts) hbroadcasts)
  refine ⟨htaken.trans (congrArg (· ++ _) hanswers),
    ⟨opening, restarts, hrecords, htimes, hphases, ?_⟩, hrecords ▸ hrounds restarts hrest⟩
  rw [hlines]
  exact congrArg (· ++ _ ++ _) hlog

/-- Without a reset cycle, all that a run broadcasts and logs is settled by the messages that its world
delivers before anything decides, by the delivery that does, and by the seed. A message that decides
has nothing broadcast, whatever other markers it carries. -/
theorem run_chronicled {w : World} (hw : w.Reachable) (htimeout : w.timeout = .disarmed) {plan : Plan}
    (huncycled : plan.resetCycle = none) {limit : Nat} {report : Report}
    (h : (plan.run w { limit } : Outcome World World.Refusal).result = .ok report) :
    let recorded : Outcome (Recorded World) World.Refusal := plan.run { sim := w } { limit }
    recorded.map Recorded.sim = plan.run w { limit } ∧
      recorded.sim.answers =
        ((w.undecided plan).map Delivery.message ++ [w.lastDelivery plan]).map some ∧
      report.Chronicles w plan (.ofSeed w.seed) ∧
      ∀ (c : Controller KeyStream) (m : Message), c.plan = plan → plan.decides m.text = true →
        (c.emits (.message m)).filterMap (·.bindings?) = [] := by
  let c : Controller KeyStream := .ofSeed plan w.seed
  have hforget : c.run w { limit } = (c.run ({ sim := w } : Recorded World) { limit }).map Recorded.sim :=
    c.run_map Recorded.hom { sim := w } { limit }
  have hplain := (Controller.result_recorded (c := c) rfl w { limit }).trans h
  obtain ⟨hanswers, hchronicles⟩ :=
    Controller.chronicles_runPlainly (c := c) rfl huncycled hw htimeout hplain
  have hagrees := c.run_agrees_runPlainly rfl ({ sim := w } : Recorded World) { limit }
  refine ⟨?_, (congrArg Recorded.answers hagrees.sim).trans hanswers, hchronicles, ?_⟩
  · exact congrArg (fun o : Outcome World World.Refusal =>
      { o with trace := .preparing w.seed plan.name :: o.trace }) hforget.symm
  · intro c m hplan hm
    have hdecides : c.plan.decides m.text = true := hplan.symm ▸ hm
    exact bindings_emits_eq_nil (by simp [draws, hdecides]) (by simp [parks, hdecides])

/-- A failure that carries the phase marker as well begins no phase. -/
theorem run_chronicled_to_failure :
    let plan : Plan :=
      { budget := .ofMillis 5
        parameters := [⟨"tcp_test_port", .drawn "server"⟩, ⟨"udp_server_port", .fixed 7⟩]
        phaseMarker := some "Stream OK" }
    let w := (((World.withMotes 7 1).serve (.print (.ofMillis 2) 1 "Stream OK")).2.serve
      (.print (.ofMillis 3) 1 "Stream OK but an ERROR came")).2
    w.Reachable ∧ w.timeout = .disarmed ∧ plan.resetCycle = none ∧
      ∃ report, (plan.run w { limit := 9 } : Outcome World World.Refusal).result = .ok report ∧
        report.Chronicles w plan (.ofSeed w.seed) ∧
        report.broadcasts.map (·.time) = [.zero, .ofMillis 2] := by
  intro plan w
  have hw : w.Reachable := .serve (.serve (.start 7 1 (by decide)) _) _
  have htimes : (plan.run w { limit := 9 } : Outcome World World.Refusal).result.toOption.map
      (fun report => report.broadcasts.map (·.time)) = some [.zero, .ofMillis 2] := by
    decide +kernel
  cases h : (plan.run w { limit := 9 } : Outcome World World.Refusal).result with
  | error cause =>
    rw [h] at htimes
    cases htimes
  | ok report =>
    rw [h] at htimes
    have hchronicles := (run_chronicled hw rfl rfl h).2.2.1
    exact ⟨hw, rfl, rfl, report, rfl, hchronicles, Option.some.inj htimes⟩

end MoteBench
