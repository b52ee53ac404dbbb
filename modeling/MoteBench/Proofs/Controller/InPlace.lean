import MoteBench.Proofs.Controller.History

/-!
Events handled in place: while a controller answers an event it is changed one part after the other,
and what was changed before the event is refused stays changed. Handled in this way, every event
still comes to its reaction, since each check stands before the first change.
-/
namespace MoteBench.Controller

open MoteBench.Random Memory

variable {G : Type} {c : Controller G}

/-- Only a plan with a reset cycle has the controller in a phase of it. -/
def Coherent (c : Controller G) : Prop := c.plan.resetCycle = none → c.phase = none

theorem Coherent.phase_eq_none (h : c.Coherent) (hcycle : c.cycle? = none) : c.phase = none := by
  cases hphase : c.phase with
  | none => rfl
  | some phase =>
    cases hplan : c.plan.resetCycle with
    | none => cases (h hplan).symm.trans hphase
    | some cycle => cases hcycle.symm.trans (cycle?_eq_some.mpr ⟨hplan, hphase⟩)

section

variable [WordSource G]

/-- What is reported while a controller handles an event. -/
def reports (c : Controller G) (e : Event) : Trace :=
  match c.handle e with
  | .ok r => r.trace
  | .error _ => []

def reportsAll (c : Controller G) : List Event → Trace
  | [] => []
  | e :: events => c.reports e ++ (c.after e).reportsAll events

/-- What a controller makes of an event as long as it has no verdict. -/
theorem handle_of_open (h : c.verdict? = none) (e : Event) :
    c.handle e = match e with
      | .start now => if c.stage ≠ .armed then .error .alreadyStarted else .ok (c.start now)
      | .message m => if c.stage = .armed then .error .messageBeforeStart else .ok (c.onMessage m)
      | .timeout now =>
        if c.stage = .armed then .error .timeoutBeforeStart else .ok (c.onTimeout now) := by
  unfold handle
  cases hs : c.stage with
  | armed => cases e <;> rfl
  | running => cases e <;> rfl
  | ended v => cases h.symm.trans (verdict?_eq_some_iff.mpr hs)

theorem Coherent.onMessage (h : c.Coherent) (m : Message) :
    (c.onMessage m).controller.Coherent := by
  cases hd : c.plan.decides m.text with
  | true =>
    obtain ⟨evidence, v, -, hends⟩ := onMessage_of_decides hd
    rw [hends]
    exact h
  | false =>
    rw [onMessage_of_not_decides hd]
    cases hcycle : c.cycle? with
    | none =>
      dsimp only
      split <;> exact h
    | some found =>
      obtain ⟨cycle, phase⟩ := found
      have hplan := (cycle?_eq_some.mp hcycle).1
      dsimp only
      split
      · intro hnone
        cases phase <;> cases hplan.symm.trans hnone
      · exact h

theorem Coherent.after (h : c.Coherent) (e : Event) : (c.after e).Coherent := by
  rw [Controller.after]
  unfold Controller.handle
  cases c.stage with
  | ended v => exact h
  | armed =>
    cases e with
    | start now => exact congrArg (Option.map fun _ => CyclePhase.configured)
    | message m => exact h
    | timeout now => exact h
  | running =>
    cases e with
    | start now => exact h
    | message m => exact h.onMessage m
    | timeout now => exact h

theorem Coherent.afterAll (h : c.Coherent) (events : List Event) :
    (c.afterAll events).Coherent := by
  induction events generalizing c with
  | nil => exact h
  | cons e events ih => exact ih (h.after e)

end

/-- A controller, and all that was reported while it handled events. -/
structure Logged (G : Type) where
  controller : Controller G
  trace : Trace := []

namespace Logged

/-- The controller with the ports that are left after a draw, and the report of the draw. -/
def drew (s : Logged G) (ports : Port.Allocator G) (trace : Trace) : Logged G :=
  { controller := { s.controller with ports }, trace := s.trace ++ trace }

theorem drew_nothing (s : Logged G) : s.drew s.controller.ports [] = s :=
  congrArg (Logged.mk s.controller) (List.append_nil s.trace)

theorem drew_drew (s : Logged G) (first last : Port.Allocator G) (front back : Trace) :
    (s.drew first front).drew last back = s.drew last (front ++ back) :=
  congrArg (Logged.mk { s.controller with ports := last }) (List.append_assoc s.trace front back)

end Logged

/-- A program that changes a controller step by step. It can be given up at any step. -/
abbrev InPlace (G : Type) := EStateM Misuse (Logged G)

namespace InPlace

/-- The end of a program that answers with a reaction, and changes nothing if there is none. -/
def concluded (s : Logged G) :
    Except Misuse (Reaction G) → EStateM.Result Misuse (Logged G) (List Action)
  | .ok r => .ok r.actions { controller := r.controller, trace := s.trace ++ r.trace }
  | .error cause => .error cause s

theorem concluded_silent (s : Logged G) (actions : List Action) (c : Controller G) :
    concluded s (.ok { actions, controller := c }) = .ok actions { s with controller := c } := by
  rw [concluded, List.append_nil]

theorem bind_get {α : Type} (f : Logged G → InPlace G α) (s : Logged G) :
    ((get : InPlace G (Logged G)) >>= f) s = f s s := rfl

theorem bind_of_ok {α β : Type} {p : InPlace G α} {s s' : Logged G} {a : α} (h : p s = .ok a s')
    (f : α → InPlace G β) : (p >>= f) s = f a s' := by
  change EStateM.bind p f s = f a s'
  rw [EStateM.bind, h]

/-- A program that begins with a check: if it is refused there, it has changed nothing. -/
theorem checked_apply {P : Prop} [Decidable P] {cause : Misuse} {p : InPlace G (List Action)}
    {s : Logged G} {answer : Except Misuse (Reaction G)} (h : ¬ P → p s = concluded s answer) :
    (if P then throw cause >>= fun _ : PUnit => p else p) s =
      concluded s (if P then .error cause else answer) := by
  by_cases hP : P
  · rw [if_pos hP, if_pos hP]
    rfl
  · rw [if_neg hP, if_neg hP]
    exact h hP

def finish (evidence : List Action) (v : Verdict) : InPlace G (List Action) := do
  modify ({ · with controller.stage := .ended v })
  return evidence ++ closing v

def onTimeout (now : Instant) : InPlace G (List Action) := do
  if (← get).controller.stage = .armed then
    throw .timeoutBeforeStart
  let elapsed := Decimal.twoPlaces now.seconds
  let v : Verdict := match (← get).controller.plan.expiry with
    | .pass => .timeoutPass
    | .fail => .fail s!"timed out after {elapsed} s"
  finish [.log .info s!"Budget elapsed at {elapsed} s"] v

theorem finish_apply (evidence : List Action) (v : Verdict) (s : Logged G) :
    finish evidence v s = concluded s (.ok (s.controller.finish evidence v)) :=
  (concluded_silent s _ _).symm

theorem onTimeout_apply (now : Instant) (s : Logged G) : onTimeout now s =
    concluded s (if s.controller.stage = .armed then .error .timeoutBeforeStart
      else .ok (s.controller.onTimeout now)) := by
  unfold onTimeout
  rw [bind_get]
  exact checked_apply fun _ => finish_apply _ _ s

variable [WordSource G]

def drawPort : PortChoice → InPlace G Port
  | .fixed port => return port
  | .drawn role => modifyGet fun s =>
    let (port, ports, trace) := Port.allocate s.controller.ports role
    (port, s.drew ports trace)

def drawPorts : List Parameter → InPlace G (List Binding)
  | [] => return []
  | p :: rest => do
    let port ← drawPort p.choice
    let bindings ← drawPorts rest
    return ⟨p.variableName, .int16 port⟩ :: bindings

def start (now : Instant) : InPlace G (List Action) := do
  if (← get).controller.stage ≠ .armed then
    throw .alreadyStarted
  let plan := (← get).controller.plan
  let opening := [.log .info (startingLine plan now), .armTimeout plan.budget]
  let bindings ← drawPorts plan.parameters
  let configuring := if bindings.isEmpty then [] else [.broadcast bindings]
  let mut pacing := []
  if let some cycle := plan.resetCycle then
    pacing := [.generate cycle.runPhase cycle.cue]
    modify ({ · with controller.phase := some .configured })
  modify ({ · with controller.stage := .running })
  return opening ++ configuring ++ pacing

/-- Draws new ports if the message ends a phase, unless phases follow a reset cycle. -/
def restartPhase (m : Message) : InPlace G (List Action) := do
  let c := (← get).controller
  if c.phase.isNone && c.plan.endsPhase m.text then
    let bindings ← drawPorts c.plan.parameters
    let listed := ", ".intercalate (bindings.map (·.value.render))
    return [.broadcast bindings, .log .info s!"Starting new stream at port {listed}"]
  return []

/-- Changes the phase of the reset cycle if the message is its cue. -/
def turnCycle (m : Message) : InPlace G (List Action) := do
  let c := (← get).controller
  match c.plan.resetCycle, c.phase with
  | some cycle, some phase =>
    if m.text ≠ cycle.cue then
      return []
    match phase with
    | .configured =>
      modify ({ · with controller.phase := some .parked })
      return [.log .info "Reset ports", .broadcast (neutralPorts c.plan.parameters),
        .generate cycle.resetPhase cycle.cue]
    | .parked =>
      let bindings ← drawPorts c.plan.parameters
      modify ({ · with controller.phase := some .configured })
      return [.broadcast bindings, .generate cycle.runPhase cycle.cue]
  | _, _ => return []

def onMessage (m : Message) : InPlace G (List Action) := do
  if (← get).controller.stage = .armed then
    throw .messageBeforeStart
  let plan := (← get).controller.plan
  if plan.fails m.text then
    return ← finish [.log .error m.render] (.fail m.render)
  if plan.passes m.text then
    return ← finish [] .pass
  let restarted ← restartPhase m
  let turned ← turnCycle m
  return restarted ++ turned

/-- Answers an event, unless it is refused. -/
def handle (e : Event) : InPlace G (List Action) := do
  if (← get).controller.isTerminal then
    return []
  match e with
  | .start now => start now
  | .message m => onMessage m
  | .timeout now => onTimeout now

theorem drawPorts_apply (parameters : List Parameter) (s : Logged G) :
    drawPorts parameters s = .ok (Controller.drawPorts parameters s.controller.ports).1
      (s.drew (Controller.drawPorts parameters s.controller.ports).2.1
        (Controller.drawPorts parameters s.controller.ports).2.2) := by
  induction parameters generalizing s with
  | nil => exact congrArg (EStateM.Result.ok []) s.drew_nothing.symm
  | cons p rest ih =>
    obtain ⟨name, choice⟩ := p
    rw [drawPorts]
    cases choice with
    | fixed port =>
      have hfixed : drawPort (.fixed port) s = .ok port s := rfl
      rw [bind_of_ok hfixed, bind_of_ok (ih s)]
      rfl
    | drawn role =>
      have hdrawn : drawPort (.drawn role) s = .ok (Port.allocate s.controller.ports role).1
          (s.drew (Port.allocate s.controller.ports role).2.1
            (Port.allocate s.controller.ports role).2.2) := rfl
      rw [bind_of_ok hdrawn, bind_of_ok (ih _)]
      exact congrArg (EStateM.Result.ok _) (Logged.drew_drew ..)

theorem start_apply {s : Logged G} (hc : s.controller.Coherent) (now : Instant) :
    start now s = concluded s (if s.controller.stage ≠ .armed then .error .alreadyStarted
      else .ok (s.controller.start now)) := by
  unfold start
  rw [bind_get]
  refine checked_apply fun _ => ?_
  rw [bind_get, bind_of_ok (drawPorts_apply _ s)]
  obtain ⟨⟨plan, ports, stage, phase⟩, trace⟩ := s
  cases hcycle : plan.resetCycle with
  | none =>
    -- Without a cycle the program leaves the phase alone, and `start` clears it.
    obtain rfl : phase = none := hc hcycle
    simp only [concluded, Controller.start, hcycle]
    rfl
  | some cycle =>
    simp only [concluded, Controller.start, hcycle]
    rfl

theorem restartPhase_of_ignored {s : Logged G} {m : Message}
    (h : (s.controller.phase.isNone && s.controller.plan.endsPhase m.text) = false) :
    restartPhase m s = .ok [] s := by
  unfold restartPhase
  rw [bind_get]
  dsimp only
  rw [if_neg (Bool.not_eq_true _ ▸ h)]
  rfl

theorem restartPhase_apply {s : Logged G} {m : Message} (hphase : s.controller.phase = none)
    (hends : s.controller.plan.endsPhase m.text = true) :
    restartPhase m s = concluded s (.ok s.controller.restartPhase) := by
  unfold restartPhase
  rw [bind_get]
  dsimp only
  rw [if_pos (by simp [hphase, hends]), bind_of_ok (drawPorts_apply _ s)]
  rfl

theorem turnCycle_of_phase_none {s : Logged G} (h : s.controller.phase = none) (m : Message) :
    turnCycle m s = .ok [] s := by
  unfold turnCycle
  rw [bind_get]
  dsimp only
  rw [h]
  cases s.controller.plan.resetCycle <;> rfl

theorem turnCycle_apply {s : Logged G} {cycle : ResetCycle} {phase : CyclePhase}
    (hcycle : s.controller.cycle? = some (cycle, phase)) (m : Message) :
    turnCycle m s = concluded s (.ok (if m.text = cycle.cue then
      s.controller.turnCycle cycle phase else { actions := [], controller := s.controller })) := by
  obtain ⟨hplan, hphase⟩ := cycle?_eq_some.mp hcycle
  unfold turnCycle
  rw [bind_get]
  dsimp only
  rw [hplan, hphase]
  dsimp only
  by_cases hcue : m.text = cycle.cue
  · rw [if_neg (fun hother => hother hcue), if_pos hcue]
    cases phase with
    | configured => exact (concluded_silent s _ _).symm
    | parked =>
      dsimp only
      rw [bind_of_ok (drawPorts_apply _ s)]
      rfl
  · rw [if_pos hcue, if_neg hcue]
    exact (concluded_silent s _ _).symm

/-- A message that decides nothing, outside a reset cycle and in one. -/
theorem restartPhase_turnCycle {s : Logged G} (hc : s.controller.Coherent) (m : Message) :
    (do return (← restartPhase m) ++ (← turnCycle m) : InPlace G (List Action)) s =
      concluded s (.ok (match s.controller.cycle? with
        | some (cycle, phase) =>
          if m.text = cycle.cue then s.controller.turnCycle cycle phase
          else { actions := [], controller := s.controller }
        | none =>
          if s.controller.plan.endsPhase m.text then s.controller.restartPhase
          else { actions := [], controller := s.controller })) := by
  -- One of the two programs does nothing: phases restart exactly if there is no cycle to turn.
  cases hcycle : s.controller.cycle? with
  | none =>
    have hphase := hc.phase_eq_none hcycle
    by_cases hends : s.controller.plan.endsPhase m.text = true
    · rw [if_pos hends, bind_of_ok (restartPhase_apply hphase hends),
        bind_of_ok (turnCycle_of_phase_none (by exact hphase) m)]
      dsimp only
      rw [List.append_nil]
      rfl
    · rw [if_neg hends, bind_of_ok (restartPhase_of_ignored (by simp [hends])),
        bind_of_ok (turnCycle_of_phase_none hphase m)]
      exact (concluded_silent s _ _).symm
  | some found =>
    obtain ⟨cycle, phase⟩ := found
    rw [bind_of_ok (restartPhase_of_ignored (by simp [(cycle?_eq_some.mp hcycle).2])),
      bind_of_ok (turnCycle_apply hcycle m)]
    rfl

theorem onMessage_apply {s : Logged G} (hc : s.controller.Coherent) (m : Message) :
    onMessage m s = concluded s (if s.controller.stage = .armed then .error .messageBeforeStart
      else .ok (s.controller.onMessage m)) := by
  unfold onMessage
  rw [bind_get]
  refine checked_apply fun _ => ?_
  rw [bind_get]
  cases hf : s.controller.plan.fails m.text with
  | true =>
    rw [if_pos rfl, onMessage_of_fails hf]
    exact finish_apply [.log .error m.render] (.fail m.render) s
  | false =>
    rw [if_neg Bool.false_ne_true]
    cases hp : s.controller.plan.passes m.text with
    | true =>
      rw [if_pos rfl, onMessage_of_passes hf hp]
      exact finish_apply [] .pass s
    | false =>
      rw [if_neg Bool.false_ne_true, onMessage_of_not_decides (Plan.decides_eq_false.mpr ⟨hf, hp⟩)]
      exact restartPhase_turnCycle hc m

/-- Handled in place or answered as a whole, an event comes to the same. -/
theorem handle_apply {s : Logged G} (hc : s.controller.Coherent) (e : Event) :
    handle e s = concluded s (s.controller.handle e) := by
  unfold handle
  rw [bind_get]
  cases hv : s.controller.verdict? with
  | some v =>
    have hterminal : s.controller.isTerminal = true := congrArg Option.isSome hv
    rw [if_pos hterminal, handle_ended (verdict?_eq_some_iff.mp hv)]
    exact (concluded_silent s _ _).symm
  | none =>
    rw [if_neg (by simp [isTerminal, hv]), handle_of_open hv]
    cases e with
    | start now => exact start_apply hc now
    | message m => exact onMessage_apply hc m
    | timeout now => exact onTimeout_apply now s

/-- An event that is refused in place has changed nothing. -/
theorem eq_of_refused {s s' : Logged G} (hc : s.controller.Coherent) {e : Event} {cause : Misuse}
    (h : handle e s = .error cause s') : s' = s := by
  rw [handle_apply hc] at h
  cases hr : s.controller.handle e with
  | error found =>
    rw [hr] at h
    exact (EStateM.Result.error.inj h).2.symm
  | ok r =>
    rw [hr] at h
    cases h

/-- The answer to an event. If it is a refusal, whatever was changed before it has stayed. -/
def tell (s : Logged G) (e : Event) : Except Misuse (List Action) × Logged G :=
  match handle e s with
  | .ok actions s => (.ok actions, s)
  | .error cause s => (.error cause, s)

/-- One answer for each event. A controller is told the next one whatever became of the last. -/
def tellAll (s : Logged G) : List Event → List (Except Misuse (List Action)) × Logged G
  | [] => ([], s)
  | e :: events =>
    let (answer, s) := tell s e
    let (answers, s) := tellAll s events
    (answer :: answers, s)

theorem tellAll_append (s : Logged G) (front back : List Event) :
    tellAll s (front ++ back) = ((tellAll s front).1 ++ (tellAll (tellAll s front).2 back).1,
      (tellAll (tellAll s front).2 back).2) := by
  induction front generalizing s with
  | nil => rfl
  | cons e front ih => simp only [List.cons_append, tellAll, ih]

theorem tell_eq {s : Logged G} (hc : s.controller.Coherent) (e : Event) :
    tell s e = (s.controller.answer e,
      { controller := s.controller.after e, trace := s.trace ++ s.controller.reports e }) := by
  rw [tell, handle_apply hc, answer, after, reports]
  cases s.controller.handle e with
  | ok r => rfl
  | error cause => exact congrArg (Prod.mk _) s.drew_nothing.symm

/-- Told of one event after the other, the controller itself goes through all that `afterAll` and
`answers` say of it. -/
theorem tellAll_eq {s : Logged G} (hc : s.controller.Coherent) (events : List Event) :
    tellAll s events = (s.controller.answers events,
      { controller := s.controller.afterAll events
        trace := s.trace ++ s.controller.reportsAll events }) := by
  induction events generalizing s with
  | nil => exact congrArg (Prod.mk []) s.drew_nothing.symm
  | cons e events ih =>
    let next : Logged G := ⟨s.controller.after e, s.trace ++ s.controller.reports e⟩
    have hnext : tellAll next events = _ := ih (hc.after e)
    rw [tellAll, tell_eq hc]
    dsimp only
    rw [hnext, List.append_assoc]
    rfl

end InPlace

end MoteBench.Controller
