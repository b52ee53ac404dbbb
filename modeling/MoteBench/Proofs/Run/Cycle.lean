import MoteBench.Proofs.Controller.Replay
import MoteBench.Proofs.Controller.Schedule
import MoteBench.Proofs.Run.Decision
import MoteBench.Proofs.Run.Walk
import MoteBench.Proofs.World.Pace

/-!
A run in its reset cycle. It waits for the cue that it asked for when the phase began, and only a
verdict comes between them.
-/
namespace MoteBench

open MoteBench.Random Memory Controller Agenda World

namespace Controller

variable {G : Type}

theorem wakesOn_iff {c : Controller G} (hs : c.stage = .running) {cycle : ResetCycle}
    {phase : CyclePhase} (hc : c.cycle? = some (cycle, phase)) {m : Message} :
    c.wakesOn m = true ↔ m.text = cycle.cue ∨ c.plan.decides m.text = true := by
  have hwait : c.wait = .cue cycle.cue := wait_eq_cue_iff.mpr ⟨cycle, phase, hc, rfl⟩
  simp [wakesOn, hs, hwait, Plan.decides, or_assoc]

variable [WordSource G]

/-- The start of a plan with a reset cycle. -/
theorem actions_start_of_cycle {c : Controller G} (hparameters : c.plan.parameters ≠ [])
    {cycle : ResetCycle} (hcycle : c.plan.resetCycle = some cycle) (now : Instant) :
    (c.start now).actions = [.log .info (startingLine c.plan now), .armTimeout c.plan.budget,
      .broadcast (drawPorts c.plan.parameters c.ports).1, .generate cycle.runPhase cycle.cue] := by
  have hsome : (drawPorts c.plan.parameters c.ports).1.isEmpty = false :=
    Bool.eq_false_iff.mpr (mt (isEmpty_drawPorts c.plan.parameters c.ports).mp hparameters)
  simp [start, hsome, hcycle]

end Controller

theorem startingLine_ne (plan : Plan) (now : Instant) : startingLine plan now ≠ "Reset ports" := by
  have hfirst : (startingLine plan now).toList.head? = some 'S' := by
    delta startingLine
    simp [ToString.toString]
  intro h
  rw [h] at hfirst
  cases hfirst

/-- The end of the budget is not announced as a reset. -/
theorem count_lines_onTimeout {G : Type} (c : Controller G) (now : Instant) :
    ((c.onTimeout now).actions.filterMap (·.line?)).count "Reset ports" = 0 := by
  have hclosing (v : Verdict) : ((closing v).filterMap (·.line?)).count "Reset ports" = 0 := by
    unfold closing
    split <;> rfl
  have hbudget (elapsed : String) : s!"Budget elapsed at {elapsed} s" ≠ "Reset ports" := by
    have hfirst : s!"Budget elapsed at {elapsed} s".toList.head? = some 'B' := by
      simp [ToString.toString]
    intro h
    rw [h] at hfirst
    cases hfirst
  rw [onTimeout]
  dsimp only [finish]
  rw [List.filterMap_append, List.count_append, hclosing]
  simpa [Action.line?, List.count_singleton] using hbudget _

namespace Run

variable {G : Type}

variable {p : String → Prop} {t : Item Pending} {cue : String}

/-- The beginning of a phase. Its ports are set, and the cue that will end it is asked for. -/
theorem performAll_phase {r : Run G World} (h : r.sim.Quiet p t cue) (hcue : p cue)
    (hlast : r.sim.lastGenerated ≤ r.sim.now) (bindings : List Binding) (delay : Span) :
    let s := (performAll [.broadcast bindings, .generate delay cue] r).2
    (∃ c, c.due = r.sim.now + delay ∧ s.sim.Paced p t c cue) ∧ s.controller = r.controller ∧
      s.broadcasts = r.broadcasts.push ⟨r.sim.now, bindings⟩ ∧ s.log = r.log := by
  refine ⟨?_, rfl, rfl, rfl⟩
  exact (h.withNodes (broadcastAll r.controller.plan.access bindings r.sim.motes).1).generate hcue
    (le_trans hlast (Instant.le_add r.sim.now delay))

variable [WordSource G]

/-- The run has changed its phase `k` times, each time when it was due and before the timeout `t`,
and the cue for the next change is to come. -/
structure Cycles (r : Run G World) (plan : Plan) (cycle : ResetCycle) (ports : Port.Allocator G)
    (p : String → Prop) (t : Item Pending) (k : Nat) : Prop where
  plan_eq : r.controller.plan = plan
  cycle_eq : plan.resetCycle = some cycle
  cue_undecided : plan.decides cycle.cue = false
  running : r.controller.stage = .running
  phase : r.controller.phase = some (.nth k)
  ports_eq : r.controller.ports = (ports.draws ((k / 2 + 1) * plan.drawnCount)).2
  paced : ∃ c, c.due = .ofMicros (cycle.boundary (k + 1)) ∧ r.sim.Paced p t c cycle.cue
  keeps : cycle.Keeps plan ports r.broadcasts.toList k
  lines : r.log.toList.count "Reset ports" = (k + 1) / 2
  reached : 1 ≤ k → cycle.boundary k < t.due.micros

/-- The cue for the change after the `k`-th was just delivered, before the timeout. -/
structure Cued (w : World) (cycle : ResetCycle) (p : String → Prop) (t : Item Pending) (k : Nat) :
    Prop where
  quiet : w.Quiet p t cycle.cue
  last : w.lastGenerated ≤ w.now
  now : w.now = .ofMicros (cycle.boundary (k + 1))
  before : w.now < t.due

variable {r : Run G World} {plan : Plan} {cycle : ResetCycle} {ports : Port.Allocator G} {k : Nat}
  {w : World}

theorem Cycles.cycle?_eq (h : r.Cycles plan cycle ports p t k) :
    r.controller.cycle? = some (cycle, .nth k) :=
  cycle?_eq_some.mpr ⟨h.plan_eq ▸ h.cycle_eq, h.phase⟩

theorem Cycles.text_cue (h : r.Cycles plan cycle ports p t k) : p cycle.cue := by
  obtain ⟨c, -, hpaced⟩ := h.paced
  exact hpaced.texts c hpaced.cue_pending _ _ hpaced.cue_payload

omit [WordSource G] in
/-- The clock did not stop before the change was due. -/
theorem Cued.micros_now (h : Cued w cycle p t k) : w.now.micros = cycle.boundary (k + 1) := by
  have hlt := Instant.lt_iff.mp h.before
  have hsize := t.due.micros_lt
  rw [h.now, Instant.micros_ofMicros] at hlt ⊢
  omega

/-- A run whose controller has turned to the next phase keeps the schedule by the actions of that
phase. -/
theorem Cycles.phase_succ (h : r.Cycles plan cycle ports p t k) (hw : Cued w cycle p t k)
    {controller : Controller G} (hplan : controller.plan = plan)
    (hrunning : controller.stage = .running) (hphase : controller.phase = some (.nth (k + 1)))
    (hports : controller.ports = (ports.draws (((k + 1) / 2 + 1) * plan.drawnCount)).2)
    {log : Array String} (hlines : log.toList.count "Reset ports" = (k + 1 + 1) / 2)
    {bindings : List Binding} (hturns : plan.Turns ports (k + 1) bindings) (trace : Array Entry) :
    (performAll [.broadcast bindings, .generate (cycle.span (.nth (k + 1))) cycle.cue]
      { r with controller, sim := w, log, trace }).2.Cycles plan cycle ports p t (k + 1) := by
  obtain ⟨⟨c, hdue, hpaced⟩, hcontroller, hrecords, hlog⟩ :=
    performAll_phase (r := { r with controller, sim := w, log, trace }) hw.quiet h.text_cue hw.last
      bindings (cycle.span (.nth (k + 1)))
  constructor
  case plan_eq => rw [hcontroller, hplan]
  case cycle_eq => exact h.cycle_eq
  case cue_undecided => exact h.cue_undecided
  case running => rw [hcontroller, hrunning]
  case phase => rw [hcontroller, hphase]
  case ports_eq => rw [hcontroller, hports]
  case paced =>
    refine ⟨c, ?_, hpaced⟩
    rw [hdue, cycle.boundary_succ (k + 1), ← hw.micros_now]
    rfl
  case keeps =>
    rw [hrecords, Array.toList_push]
    exact h.keeps.push hw.micros_now hturns
  case lines => rw [hlog, hlines]
  case reached =>
    intro _
    rw [← hw.micros_now]
    exact hw.before

/-- The run after the phase was changed, and all that was asked for is done. -/
def turned (r : Run G World) (cycle : ResetCycle) (phase : CyclePhase) : Run G World :=
  (performAll (r.controller.turnCycle cycle phase).actions
    (r.adopt (r.controller.turnCycle cycle phase))).2

/-- A run phase ends, and all ports are taken away. -/
theorem Cycles.park (h : r.Cycles plan cycle ports p t k) (hw : Cued w cycle p t k)
    (heven : k % 2 = 0) (trace : Array Entry) :
    ({ r with sim := w, trace }.turned cycle .configured).Cycles plan cycle ports p t (k + 1) := by
  have hodd : (k + 1) % 2 = 1 := by omega
  have hhalf : (k + 1) / 2 = k / 2 := by omega
  have hspan : cycle.resetPhase = cycle.span (.nth (k + 1)) := by
    rw [CyclePhase.nth_of_odd hodd]
    rfl
  dsimp only [turned, turnCycle]
  rw [performAll_cons_of_ok rfl, hspan]
  apply h.phase_succ hw
  case hplan => exact h.plan_eq
  case hrunning => exact h.running
  case hphase =>
    rw [CyclePhase.nth_of_odd hodd]
    rfl
  case hports =>
    rw [hhalf]
    exact h.ports_eq
  case hlines =>
    have hlog : (r.log.push "Reset ports").toList.count "Reset ports" = (k + 1) / 2 + 1 := by
      rw [Array.toList_push, List.count_append, h.lines]
      rfl
    exact hlog.trans (by omega)
  case hturns => exact ⟨fun _ => by rw [h.plan_eq], fun heven => by omega⟩

/-- A reset phase ends, and ports are drawn again. -/
theorem Cycles.configure (h : r.Cycles plan cycle ports p t k) (hw : Cued w cycle p t k)
    (hodd : k % 2 = 1) (trace : Array Entry) :
    ({ r with sim := w, trace }.turned cycle .parked).Cycles plan cycle ports p t (k + 1) := by
  have heven : (k + 1) % 2 = 0 := by omega
  have hhalf : (k + 1) / 2 = k / 2 + 1 := by omega
  have hspan : cycle.runPhase = cycle.span (.nth (k + 1)) := by
    rw [CyclePhase.nth_of_even heven]
    rfl
  have hround := configures_drawPorts plan.parameters r.controller.ports
  dsimp only [turned, turnCycle]
  rw [hspan, h.plan_eq]
  apply h.phase_succ hw
  case hplan => rfl
  case hrunning => exact h.running
  case hphase => rw [CyclePhase.nth_of_even heven]
  case hports =>
    rw [hhalf, Nat.succ_mul (k / 2 + 1), Port.Allocator.draws_add, ← h.ports_eq]
    exact hround.2
  case hlines => exact h.lines.trans (by omega)
  case hturns =>
    refine ⟨fun hodd => by omega, fun _ => ?_⟩
    rw [hhalf, ← h.ports_eq]
    exact hround.1

/-- The cue begins the next phase. -/
theorem Cycles.turn (h : r.Cycles plan cycle ports p t k) (hw : Cued w cycle p t k)
    (trace : Array Entry) :
    let taken : Run G World := { r with sim := w, trace }
    (taken.step (.message ⟨w.now, .script, cycle.cue⟩)).1 = .ok none ∧
      (taken.step (.message ⟨w.now, .script, cycle.cue⟩)).2.Cycles plan cycle ports p t (k + 1) := by
  intro taken
  have hdecides : r.controller.plan.decides cycle.cue = false := h.plan_eq ▸ h.cue_undecided
  have hhandle : taken.controller.handle (.message ⟨w.now, .script, cycle.cue⟩) =
      .ok (taken.controller.turnCycle cycle (.nth k)) := by
    rw [handle_message h.running,
      onMessage_of_not_decides (m := ⟨w.now, .script, cycle.cue⟩) hdecides, h.cycle?_eq]
    exact congrArg Except.ok (if_pos rfl)
  have hc := continues_turnCycle h.running (h.plan_eq ▸ h.cycle_eq) (.nth k)
  have hok := performAll_ok (fun a ha => Action.budget?_of_isProgress (hc.progress a ha))
    (taken.adopt (taken.controller.turnCycle cycle (.nth k)))
  rw [step_of_handle hhandle, hok, verdicts_eq_nil_of_isProgress hc.progress]
  refine ⟨rfl, ?_⟩
  change (taken.turned cycle (.nth k)).Cycles plan cycle ports p t (k + 1)
  rcases Nat.mod_two_eq_zero_or_one k with heven | hodd
  · rw [CyclePhase.nth_of_even heven]
    exact h.park hw heven trace
  · rw [CyclePhase.nth_of_odd hodd]
    exact h.configure hw hodd trace

/-- What a wait for the cue comes to: a message that decides the run, the cue, or the timeout. -/
inductive Brings (plan : Plan) (cycle : ResetCycle) (p : String → Prop) (t : Item Pending) (k : Nat) :
    Delivery → World → Prop where
  | decided {w : World} (m : Message) (hm : plan.decides m.text = true) (hp : p m.text) :
      Brings plan cycle p t k (.message m) w
  | cue {w : World} (hw : Cued w cycle p t k) :
      Brings plan cycle p t k (.message ⟨w.now, .script, cycle.cue⟩) w
  | timeout {w : World} (hbefore : t.due ≤ .ofMicros (cycle.boundary (k + 1))) :
      Brings plan cycle p t k (.timeout t.due) w

theorem Cycles.brings (h : r.Cycles plan cycle ports p t k) {c : Cursor} {d : Delivery}
    (hd : (r.await c).outcome = .ok d) : Brings plan cycle p t k d (r.await c).sim := by
  obtain ⟨i, hdue, hpaced⟩ := h.paced
  have hwakes {m : Message} :
      r.controller.wakesOn m = true ↔ m.text = cycle.cue ∨ plan.decides m.text = true := by
    rw [wakesOn_iff h.running h.cycle?_eq, h.plan_eq]
  have hskip : ∀ (w : World) (m : Message) (w' : World), w.Paced p t i cycle.cue →
      Simulator.next w = (some (.message m), w') → r.controller.wakesOn m = false →
        w'.Paced p t i cycle.cue := by
    intro w m w' hw hnext hm
    obtain ⟨hdelivery, rfl⟩ := Prod.mk.inj hnext
    rcases hw.next with ⟨m', -, -, -, hkept⟩ | ⟨-, hcue, -⟩ | ⟨-, htimeout⟩
    · exact hkept
    · obtain rfl := Delivery.message.inj (Option.some.inj (hdelivery.symm.trans hcue))
      cases (hwakes.mpr (.inl rfl)).symm.trans hm
    · cases hdelivery.symm.trans htimeout
  obtain ⟨w, hw, hnext, hwoken⟩ := exists_next_of_await h.running hskip hpaced hd
  obtain ⟨hdelivery, hafter⟩ := Prod.mk.inj hnext
  rw [← hafter]
  rcases hw.next with ⟨m, hm, hother, hp, -⟩ | ⟨hbefore, hcue, hquiet, hnow, hlast⟩ |
    ⟨hbefore, htimeout⟩
  · obtain rfl := Option.some.inj (hdelivery.symm.trans hm)
    exact .decided m ((hwakes.mp (hwoken m rfl)).resolve_left hother) hp
  · obtain rfl := Option.some.inj (hdelivery.symm.trans hcue)
    rw [← hnow]
    refine .cue ⟨hquiet, ?_, hnow.trans hdue, hnow ▸ hbefore⟩
    rw [hlast, hnow]
    exact hw.last
  · obtain rfl := Option.some.inj (hdelivery.symm.trans htimeout)
    exact .timeout (hdue ▸ hbefore)

/-- A message that decides the run, and the timeout, bring the verdict. -/
theorem Cycles.verdict_of_ends (h : r.Cycles plan cycle ports p t k) (due : Instant) {e : Pending}
    (he : plan.endsWith e) (c : Cursor) :
    ((r.waited c).step (e.delivery due).toEvent).1 ≠ .ok none := by
  rw [(step_of_endsWith (r := r.waited c) due h.plan_eq h.running he).1]
  exact fun hnone => by cases hnone

theorem Cycles.step (h : r.Cycles plan cycle ports p t k) {c : Cursor} {d : Delivery}
    (hd : (r.await c).outcome = .ok d) (hnone : ((r.waited c).step d.toEvent).1 = .ok none) :
    ((r.waited c).step d.toEvent).2.Cycles plan cycle ports p t (k + 1) := by
  have hbrings := h.brings hd
  generalize hw : (r.await c).sim = w at hbrings
  cases hbrings with
  | decided m hm hpm =>
    exact absurd hnone (h.verdict_of_ends m.time (e := .message m.source m.text) hm c)
  | cue hcued =>
    have hturn := (h.turn hcued (r.trace ++ (r.await c).trace)).2
    rwa [waited, hw]
  | timeout hbefore => exact absurd hnone (h.verdict_of_ends t.due (e := .timeout) rfl c)

/-- At every point of its cycle a run has kept the schedule. -/
theorem Passes.cycles {s : Run G World} {c c' : Cursor} (h : r.Passes c s c')
    (hr : r.Cycles plan cycle ports p t k) : ∃ n, s.Cycles plan cycle ports p t n :=
  h.invariant (P := fun s => ∃ n, s.Cycles plan cycle ports p t n)
    (fun _ _ _ ⟨n, hs⟩ hd hnone => ⟨n + 1, hs.step hd hnone⟩) ⟨k, hr⟩

/-- The report of a run in its cycle. Unless a message decides it, the next change of phase would not
have come before the timeout. -/
theorem Cycles.report (h : r.Cycles plan cycle ports p t k) {c : Cursor} {d : Delivery}
    {report : Report} (hreports : r.Reports c d report) :
    report.broadcasts = r.broadcasts.toList ∧
      ((∃ text, p text ∧ plan.decides text = true) ∨
        t.due ≤ .ofMicros (cycle.boundary (k + 1)) ∧
          report.log.count "Reset ports" = (k + 1) / 2) := by
  have hbroadcasts := congrArg Report.broadcasts (Except.ok.inj hreports.result)
  have hlog := congrArg Report.log (Except.ok.inj hreports.result)
  have hverdict := hreports.verdict
  have hbrings := h.brings hreports.waited
  generalize hw : (r.await c).sim = w at hbrings
  cases hbrings with
  | decided m hm hpm =>
    have hdecides : r.controller.plan.decides m.text = true := h.plan_eq ▸ hm
    have hsame := broadcasts_step (r := r.waited c) (e := .message m)
      (by simp [draws, waited, hdecides]) (by simp [parks, waited, hdecides])
    exact ⟨hbroadcasts.symm.trans (congrArg Array.toList hsame), .inl ⟨m.text, hpm, hm⟩⟩
  | cue hcued =>
    have hturn := (h.turn hcued (r.trace ++ (r.await c).trace)).1
    rw [waited, hw] at hverdict
    cases hturn.symm.trans hverdict
  | timeout hbefore =>
    have hsame := broadcasts_step (r := r.waited c) (e := .timeout t.due) rfl rfl
    obtain ⟨actions, hanswer, -, hlines, -⟩ := step_eq_ok hverdict
    obtain rfl := Except.ok.inj
      ((answer_of_handle (handle_timeout (c := (r.waited c).controller) h.running t.due)).symm.trans
        hanswer)
    refine ⟨hbroadcasts.symm.trans (congrArg Array.toList hsame), .inr ⟨hbefore, ?_⟩⟩
    rw [← hlog]
    change (((r.waited c).step _).2.log.toList).count _ = _
    rw [hlines, List.count_append, count_lines_onTimeout]
    exact h.lines

end Run

/-- The start of a run of a plan with a reset cycle begins its schedule. -/
theorem Controller.cycles_begun {G : Type} [WordSource G] {w : World} (hfresh : w.Fresh)
    (htimely : w.Timely) (hnone : ∀ e ∈ w.docket.entries, e.2 ≠ .timeout) {plan : Plan}
    (hparameters : plan.parameters ≠ []) {cycle : ResetCycle}
    (hcycle : plan.resetCycle = some cycle) (hcue : plan.decides cycle.cue = false)
    {p : String → Prop} (hp : p cycle.cue) (htexts : ∀ m ∈ w.pending, p m.text)
    (hlate : ∀ m ∈ w.pending, m.text = cycle.cue →
      m.source ≠ .script ∧ w.now + plan.budget < m.time) (ports : Port.Allocator G) :
    ∃ t, t.due = w.now + plan.budget ∧
      (Controller.begun { plan, ports } w).Cycles plan cycle ports p t 0 := by
  let c : Controller G := { plan, ports }
  let r : Run G World := { controller := c, sim := w }
  let opened : Run G World :=
    ((r.adopt (c.start w.now)).perform (.log .info (startingLine plan w.now))).2
  obtain ⟨hok, hworld⟩ := Run.perform_armTimeout (r := opened)
    (World.armTimeout_of_disarmed hfresh.timeout plan.budget)
  obtain ⟨t, hdue, hquiet⟩ := World.quiet_armed htimely hnone htexts hlate
  have hround := configures_drawPorts plan.parameters ports
  have hbegun : c.begun w = (Run.performAll [.broadcast (drawPorts plan.parameters ports).1,
      .generate cycle.runPhase cycle.cue] (opened.perform (.armTimeout plan.budget)).2).2 := by
    have hactions := actions_start_of_cycle (c := c) hparameters hcycle w.now
    rw [begun, Run.step_of_handle (handle_start rfl _)]
    change (Run.performAll (c.start w.now).actions (r.adopt (c.start w.now))).2 = _
    rw [hactions, Run.performAll_cons_of_ok rfl, Run.performAll_cons_of_ok hok]
  have harmed : (opened.perform (.armTimeout plan.budget)).2.sim.Quiet p t cycle.cue := by
    rw [hworld]
    exact hquiet
  have hnow : (opened.perform (.armTimeout plan.budget)).2.sim.now = .zero := by
    rw [hworld]
    exact hfresh.now
  have hlast : (opened.perform (.armTimeout plan.budget)).2.sim.lastGenerated = .zero := by
    rw [hworld]
    exact hfresh.lastGenerated
  have hcontroller := Run.controller_perform opened (.armTimeout plan.budget)
  obtain ⟨⟨i, hi, hpaced⟩, hsame, hbroadcasts, hlog⟩ := Run.performAll_phase harmed hp
    (le_of_eq (hlast.trans hnow.symm)) (drawPorts plan.parameters ports).1 cycle.runPhase
  refine ⟨t, hdue, ?_⟩
  rw [hbegun]
  constructor
  case plan_eq => rw [hsame, hcontroller]; rfl
  case cycle_eq => exact hcycle
  case cue_undecided => exact hcue
  case running => rw [hsame, hcontroller]; rfl
  case phase =>
    rw [hsame, hcontroller]
    change plan.resetCycle.map _ = _
    rw [hcycle]
    rfl
  case ports_eq =>
    rw [hsame, hcontroller, Nat.zero_div, Nat.zero_add, Nat.one_mul]
    exact hround.2
  case paced =>
    refine ⟨i, ?_, hpaced⟩
    rw [hi, hnow, cycle.boundary_succ 0, cycle.boundary_zero]
    rfl
  case keeps =>
    rw [hbroadcasts, Array.toList_push]
    refine ResetCycle.keeps_singleton hnow ⟨fun h => absurd h (by decide), fun _ => ?_⟩
    rw [Nat.zero_div, Nat.zero_mul]
    exact hround.1
  case lines =>
    have hopening : (opened.perform (.armTimeout plan.budget)).2.log =
        #[startingLine plan w.now] := rfl
    rw [hlog, hopening]
    simp [startingLine_ne]
  case reached => exact fun h => absurd h (by decide)

end MoteBench
