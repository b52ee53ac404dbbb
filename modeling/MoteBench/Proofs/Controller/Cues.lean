import MoteBench.Proofs.Controller.Lifecycle
import MoteBench.Proofs.Controller.Schedule

/-!
The cues of a reset cycle, whoever sends them and whatever comes between. Each of them changes the
phase and asks for the next, and no other message does either.
-/
namespace MoteBench

open MoteBench.Random Memory Controller

/-- The message that an action asks for. -/
def Controller.Action.request? : Action → Option (Span × String)
  | .generate delay payload => some (delay, payload)
  | _ => none

namespace Controller

variable {G : Type}

/-- Whether an event is a cue of the reset cycle: a message of exactly its text, during the run, that
does not decide the run. -/
def heeds (c : Controller G) (cycle : ResetCycle) : Event → Bool
  | .message m => c.stage = .running && !c.plan.decides m.text && m.text = cycle.cue
  | _ => false

/-- The controller is past its start, and has changed its phase `k` times since. -/
structure Turned (c : Controller G) (plan : Plan) (cycle : ResetCycle) (k : Nat) : Prop where
  plan_eq : c.plan = plan
  cycle_eq : plan.resetCycle = some cycle
  begun : c.stage ≠ .armed
  phase : c.phase = some (.nth k)

variable {c : Controller G} {plan : Plan} {cycle : ResetCycle} {k : Nat}

theorem Turned.cycle?_eq (h : c.Turned plan cycle k) : c.cycle? = some (cycle, .nth k) :=
  cycle?_eq_some.mpr ⟨h.plan_eq ▸ h.cycle_eq, h.phase⟩

theorem Turned.wait_eq (h : c.Turned plan cycle k) : c.wait = .cue cycle.cue := by
  rw [wait, h.cycle?_eq]

theorem heeds_message {m : Message} : c.heeds cycle (.message m) = true ↔
    c.stage = .running ∧ c.plan.decides m.text = false ∧ m.text = cycle.cue := by
  simp [heeds, and_assoc]

variable [WordSource G]

/-- How many of the events are cues. -/
def cuesHeard (c : Controller G) (cycle : ResetCycle) : List Event → Nat
  | [] => 0
  | e :: events => (c.heeds cycle e).toNat + (c.after e).cuesHeard cycle events

/-! What a message comes to in a reset cycle. -/

theorem Turned.handle_cue (h : c.Turned plan cycle k) {m : Message}
    (hm : c.heeds cycle (.message m)) : c.handle (.message m) = .ok (c.turnCycle cycle (.nth k)) := by
  obtain ⟨hs, hd, htext⟩ := heeds_message.mp hm
  rw [handle_message hs, onMessage_of_not_decides hd, h.cycle?_eq]
  exact congrArg Except.ok (if_pos htext)

/-- Any other message is passed over, unless it decides the run. -/
theorem Turned.handle_other (h : c.Turned plan cycle k) {m : Message}
    (hd : plan.decides m.text = false) (hm : c.heeds cycle (.message m) = false) :
    c.handle (.message m) = .ok { actions := [], controller := c } := by
  rw [← h.plan_eq] at hd
  cases hs : c.stage with
  | armed => exact absurd hs h.begun
  | ended v => exact handle_ended hs _
  | running =>
    have htext : m.text ≠ cycle.cue := fun htext => by
      rw [heeds_message.mpr ⟨hs, hd, htext⟩] at hm
      cases hm
    rw [handle_message hs, onMessage_of_not_decides hd, h.cycle?_eq]
    exact congrArg Except.ok (if_neg htext)

/-- A cue that ends a run phase takes all ports away. -/
theorem Turned.answer_of_even (h : c.Turned plan cycle k) (hk : k % 2 = 0) {m : Message}
    (hm : c.heeds cycle (.message m)) :
    c.answer (.message m) = .ok [.log .info "Reset ports",
      .broadcast (plan.parameters.map fun p => ⟨p.variableName, .int16 0⟩),
      .generate cycle.resetPhase cycle.cue] := by
  rw [answer_of_handle (h.handle_cue hm), CyclePhase.nth_of_even hk, ← h.plan_eq]
  rfl

/-- A cue that ends a reset phase draws ports anew. -/
theorem Turned.answer_of_odd (h : c.Turned plan cycle k) (hk : k % 2 = 1) {m : Message}
    (hm : c.heeds cycle (.message m)) : ∃ bindings,
      c.answer (.message m) = .ok [.broadcast bindings, .generate cycle.runPhase cycle.cue] ∧
      Configures plan.parameters (c.ports.draws plan.drawnCount).1 bindings ∧
      (c.after (.message m)).ports = (c.ports.draws plan.drawnCount).2 := by
  have hround := configures_drawPorts c.plan.parameters c.ports
  rw [answer_of_handle (h.handle_cue hm), after_of_handle (h.handle_cue hm),
    CyclePhase.nth_of_odd hk, ← h.plan_eq]
  exact ⟨_, rfl, hround.1, hround.2⟩

/-- What one event does to a controller in its reset cycle: a cue turns it to the next phase and makes
it ask for the cue that ends that, and nothing else does. -/
structure Turns (c : Controller G) (plan : Plan) (cycle : ResetCycle) (k : Nat) (e : Event) :
    Prop where
  turned : (c.after e).Turned plan cycle (k + (c.heeds cycle e).toNat)
  requests : (c.emits e).filterMap (·.request?) =
    if c.heeds cycle e then [(cycle.span (.nth (k + 1)), cycle.cue)] else []

theorem Turned.turns_cue (h : c.Turned plan cycle k) {m : Message}
    (hm : c.heeds cycle (.message m)) : c.Turns plan cycle k (.message m) := by
  have hhandle := h.handle_cue hm
  have hturn : (c.turnCycle cycle (.nth k)).controller.phase = some (.nth (k + 1)) ∧
      (c.turnCycle cycle (.nth k)).actions.filterMap (·.request?) =
        [(cycle.span (.nth (k + 1)), cycle.cue)] := by
    rcases Nat.mod_two_eq_zero_or_one k with hk | hk
    · rw [CyclePhase.nth_of_even hk, CyclePhase.nth_of_odd (by omega)]
      exact ⟨rfl, rfl⟩
    · rw [CyclePhase.nth_of_odd hk, CyclePhase.nth_of_even (by omega)]
      exact ⟨rfl, rfl⟩
  have hstage : (c.turnCycle cycle (.nth k)).controller.stage = c.stage := by
    cases CyclePhase.nth k <;> rfl
  constructor
  · rw [hm, after_of_handle hhandle]
    refine ⟨?_, h.cycle_eq, fun harmed => h.begun (hstage ▸ harmed), hturn.1⟩
    rw [← after_of_handle hhandle, plan_after, h.plan_eq]
  · rw [emits_of_handle hhandle, if_pos hm, hturn.2]

/-- An event that is no cue, and does not touch the phase. -/
theorem Turned.turns_of_quiet (h : c.Turned plan cycle k) {e : Event}
    (hquiet : c.heeds cycle e = false) {r : Reaction G} (hr : c.handle e = .ok r)
    (hstage : r.controller.stage ≠ .armed) (hphase : r.controller.phase = c.phase)
    (hrequests : r.actions.filterMap (·.request?) = []) : c.Turns plan cycle k e := by
  constructor
  · rw [hquiet]
    refine ⟨by rw [plan_after, h.plan_eq], h.cycle_eq, ?_, ?_⟩
    · rwa [after_of_handle hr]
    · rw [after_of_handle hr, hphase, h.phase, Bool.toNat_false, Nat.add_zero]
  · rw [emits_of_handle hr, hrequests, hquiet]
    rfl

theorem Turned.turns_of_refused (h : c.Turned plan cycle k) {e : Event} {cause : Misuse}
    (ha : c.answer e = .error cause) (hquiet : c.heeds cycle e = false) :
    c.Turns plan cycle k e := by
  constructor
  · rw [hquiet, after_of_refused ha]
    exact h
  · rw [emits_of_refused ha, hquiet]
    rfl

theorem Turned.turns (h : c.Turned plan cycle k) (e : Event) : c.Turns plan cycle k e := by
  cases hs : c.stage with
  | armed => exact absurd hs h.begun
  | ended v =>
    have hquiet : c.heeds cycle e = false := by cases e <;> simp [heeds, hs]
    exact h.turns_of_quiet hquiet (handle_ended hs e) h.begun rfl rfl
  | running =>
    cases e with
    | start now =>
      exact h.turns_of_refused (answer_eq_error_iff.mpr (.inr (.inr ⟨hs, ⟨now, rfl⟩, rfl⟩))) rfl
    | timeout now =>
      exact h.turns_of_quiet rfl (handle_timeout hs now) Stage.noConfusion rfl
        (filterMap_finish (fun _ _ => rfl) (fun _ => rfl) c (by simp) _)
    | message m =>
      cases hd : c.plan.decides m.text with
      | true =>
        obtain ⟨evidence, v, hevidence, heq⟩ := onMessage_of_decides hd
        have hr := (handle_message hs m).trans (congrArg Except.ok heq)
        exact h.turns_of_quiet (by simp [heeds, hd]) hr Stage.noConfusion rfl
          (filterMap_finish (fun _ _ => rfl) (fun _ => rfl) c hevidence v)
      | false =>
        cases hm : c.heeds cycle (.message m) with
        | true => exact h.turns_cue hm
        | false =>
          exact h.turns_of_quiet hm (h.handle_other (h.plan_eq ▸ hd) hm) h.begun rfl rfl

/-- A controller that has changed its phase `k` times hears more cues, and asks for one after each. -/
theorem Turned.afterAll (h : c.Turned plan cycle k) (events : List Event) :
    (c.afterAll events).Turned plan cycle (k + c.cuesHeard cycle events) ∧
      (c.emitted events).filterMap (·.request?) =
        (List.range' (k + 1) (c.cuesHeard cycle events)).map
          fun i => (cycle.span (.nth i), cycle.cue) := by
  induction events generalizing c k with
  | nil => exact ⟨h, rfl⟩
  | cons e events ih =>
    obtain ⟨hturned, hrequests⟩ := h.turns e
    obtain ⟨hturned', hrequests'⟩ := ih hturned
    rw [afterAll_cons, emitted_cons, cuesHeard, List.filterMap_append, hrequests, hrequests',
      ← Nat.add_assoc]
    refine ⟨hturned', ?_⟩
    cases c.heeds cycle e with
    | false => rw [Bool.toNat_false, Nat.add_zero, Nat.zero_add]; rfl
    | true => rw [Bool.toNat_true, Nat.add_comm 1, List.range'_succ]; rfl

theorem requests_start (c : Controller G) (now : Instant) :
    (c.start now).actions.filterMap (·.request?) =
      c.plan.resetCycle.toList.map fun cycle => (cycle.runPhase, cycle.cue) := by
  have hconfiguring : (if (drawPorts c.plan.parameters c.ports).1.isEmpty then []
      else [Action.broadcast (drawPorts c.plan.parameters c.ports).1]).filterMap
        (·.request?) = [] := by
    split <;> rfl
  simp only [start, List.filterMap_append, hconfiguring]
  cases c.plan.resetCycle <;> rfl

theorem turned_start (h : c.plan.resetCycle = some cycle) (now : Instant) :
    (c.start now).controller.Turned c.plan cycle 0 :=
  ⟨rfl, h, Stage.noConfusion, by simp [start, h, CyclePhase.nth_of_even]⟩

/-- The first cue is asked for by the start. -/
theorem turned_of_begun (hs : c.stage = .armed) (hcycle : c.plan.resetCycle = some cycle)
    {events : List Event} (hbegun : (c.afterAll events).stage ≠ .armed) :
    (c.afterAll events).Turned c.plan cycle (c.cuesHeard cycle events) ∧
      (c.emitted events).filterMap (·.request?) =
        (List.range (c.cuesHeard cycle events + 1)).map
          fun i => (cycle.span (.nth i), cycle.cue) := by
  induction events with
  | nil => exact absurd hs hbegun
  | cons e events ih =>
    have hquiet : c.heeds cycle e = false := by cases e <;> simp [heeds, hs]
    have hrefused {cause : Misuse} (ha : c.answer e = .error cause) : c.after e = c ∧ c.emits e = [] :=
      ⟨after_of_refused ha, emits_of_refused ha⟩
    have hcases : (c.after e = c ∧ c.emits e = []) ∨ ∃ now, e = .start now := by
      cases e with
      | message m => exact .inl (hrefused (answer_eq_error_iff.mpr (.inl ⟨hs, ⟨m, rfl⟩, rfl⟩)))
      | timeout now =>
        exact .inl (hrefused (answer_eq_error_iff.mpr (.inr (.inl ⟨hs, ⟨now, rfl⟩, rfl⟩))))
      | start now => exact .inr ⟨now, rfl⟩
    rw [afterAll_cons] at hbegun
    rw [afterAll_cons, emitted_cons, cuesHeard, hquiet, Bool.toNat_false, Nat.zero_add]
    rcases hcases with ⟨hsame, hnone⟩ | ⟨now, rfl⟩
    · rw [hsame] at hbegun ⊢
      rw [hnone]
      exact ih hbegun
    · have hhandle := handle_start hs now
      obtain ⟨hturned, hrequests⟩ := (turned_start hcycle now).afterAll events
      rw [Nat.zero_add] at hturned
      rw [after_of_handle hhandle, emits_of_handle hhandle, List.filterMap_append, requests_start,
        hcycle, hrequests, List.range_eq_range', List.range'_succ]
      exact ⟨hturned, rfl⟩

/-- How the controller `c₀` goes by the cues of its reset cycle, at a point after its start: `events`
are all it has been told. -/
structure GoesByCues (c₀ : Controller G) (cycle : ResetCycle) (events : List Event) : Prop where
  /-- The cues with odd numbers take all ports away. -/
  parks : c₀.cuesHeard cycle events % 2 = 0 → ∀ m, (c₀.afterAll events).heeds cycle (.message m) →
    (c₀.afterAll events).answer (.message m) = .ok [.log .info "Reset ports",
      .broadcast (c₀.plan.parameters.map fun p => ⟨p.variableName, .int16 0⟩),
      .generate cycle.resetPhase cycle.cue]
  /-- Those with even numbers draw ports anew, from where the allocator stands. -/
  configures : c₀.cuesHeard cycle events % 2 = 1 → ∀ m,
    (c₀.afterAll events).heeds cycle (.message m) → ∃ bindings,
      (c₀.afterAll events).answer (.message m) =
        .ok [.broadcast bindings, .generate cycle.runPhase cycle.cue] ∧
      Configures c₀.plan.parameters
        ((c₀.afterAll events).ports.draws c₀.plan.drawnCount).1 bindings ∧
      ((c₀.afterAll events).after (.message m)).ports =
        ((c₀.afterAll events).ports.draws c₀.plan.drawnCount).2
  /-- Other messages have no effect, unless they decide the run. -/
  ignores : ∀ m, c₀.plan.decides m.text = false →
    (c₀.afterAll events).heeds cycle (.message m) = false →
      (c₀.afterAll events).answer (.message m) = .ok [] ∧
        (c₀.afterAll events).after (.message m) = c₀.afterAll events
  /-- The start asks for a cue, and so does every cue. -/
  requests : (c₀.emitted events).filterMap (·.request?) =
    (List.range (c₀.cuesHeard cycle events + 1)).map fun k => (cycle.span (.nth k), cycle.cue)
  wait : (c₀.afterAll events).wait = .cue cycle.cue

/-- A controller with a reset cycle goes by its cues whatever else it is told. -/
theorem goesByCues (plan : Plan) (ports : Port.Allocator G) (cycle : ResetCycle)
    (events : List Event) (hcycle : plan.resetCycle = some cycle)
    (hstarted : Started { plan, ports } events) : GoesByCues { plan, ports } cycle events := by
  have hfresh : ({ plan, ports } : Controller G).stage = .armed := rfl
  obtain ⟨hturned, hrequests⟩ := turned_of_begun hfresh hcycle ((started_iff hfresh).mp hstarted)
  constructor
  case parks => exact fun hk m hm => hturned.answer_of_even hk hm
  case configures => exact fun hk m hm => hturned.answer_of_odd hk hm
  case ignores =>
    intro m hd hm
    have hhandle := hturned.handle_other hd hm
    exact ⟨answer_of_handle hhandle, after_of_handle hhandle⟩
  case requests => exact hrequests
  case wait => exact hturned.wait_eq

/-- Messages before the start, around the cue and beside it do not count, a second start is refused,
and the phase marker stands inside the cue. -/
theorem goesByCues_among_others :
    let cycle : ResetCycle := { cue := "continue" }
    let plan : Plan :=
      { parameters := [⟨"tcp_test_port", .fixed 1883⟩, ⟨"udp_server_port", .drawn "server"⟩]
        phaseMarker := some "tin", resetCycle := some cycle }
    let say (source : Source) (text : String) : Event := .message ⟨.zero, source, text⟩
    let events := [say .script "continue", .start .zero, say (.mote 3) "to continue",
      say (.mote 3) "continue", .start .zero, say .script "tin", say .script "continue"]
    let c₀ : Controller KeyStream := .ofSeed plan 1
    plan.resetCycle = some cycle ∧ Started c₀ events ∧ GoesByCues c₀ cycle events ∧
      c₀.cuesHeard cycle events = 2 := by
  intro cycle plan say events c₀
  have hstarted : Started c₀ events :=
    ⟨[say .script "continue"], .zero, _, rfl, _, answer_of_handle (handle_start rfl .zero)⟩
  exact ⟨rfl, hstarted, goesByCues plan (.ofSeed 1) cycle events rfl hstarted, by decide +kernel⟩

end Controller
end MoteBench
