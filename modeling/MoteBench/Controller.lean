import MoteBench.Controller.Action
import MoteBench.Decimal.Hundredths
import MoteBench.Plan
import MoteBench.Port.Allocator

/-!
The controller of a test run: it takes events one by one and answers each with actions. It never
touches a simulation itself. Its verdict is set once, and after that every event is answered with
nothing.
-/
namespace MoteBench

open MoteBench.Random Memory

inductive Stage where
  | armed
  | running
  | ended (verdict : Verdict)
  deriving DecidableEq, Repr

/-- Position in a reset cycle: ports are configured, or all of them are neutral. -/
inductive CyclePhase where
  | configured
  | parked
  deriving DecidableEq, Repr

structure Controller (G : Type) where
  plan : Plan
  ports : Port.Allocator G
  stage : Stage := .armed
  phase : Option CyclePhase := none
  deriving DecidableEq, Repr

namespace Controller

/-- What a controller waits for: any message, or one with exactly this text. -/
inductive Wait where
  | any
  | cue (text : String)
  deriving DecidableEq, Repr

variable {G : Type}

def ofSeed (plan : Plan) (seed : UInt64) : Controller KeyStream :=
  { plan, ports := .ofSeed seed }

def verdict? (c : Controller G) : Option Verdict :=
  match c.stage with
  | .ended v => some v
  | _ => none

def isTerminal (c : Controller G) : Bool := c.verdict?.isSome

/-- The reset cycle, once the run is in it, and where in it. -/
def cycle? (c : Controller G) : Option (ResetCycle × CyclePhase) :=
  match c.plan.resetCycle, c.phase with
  | some cycle, some phase => some (cycle, phase)
  | _, _ => none

def wait (c : Controller G) : Wait :=
  match c.cycle? with
  | some (cycle, _) => .cue cycle.cue
  | none => .any

/-- Whether a message ends the wait. A message that decides the run always does. -/
def wakesOn (c : Controller G) (m : Message) : Bool :=
  match c.stage, c.wait with
  | .running, .any => true
  | .running, .cue text => m.text = text || c.plan.fails m.text || c.plan.passes m.text
  | _, _ => false

/-- The actions that answer an event, the controller after it, and what was reported meanwhile. -/
structure Reaction (G : Type) where
  actions : List Action
  controller : Controller G
  trace : Trace := []

/-- A port for each parameter, in the order of the plan. -/
def drawPorts [WordSource G] : List Parameter → Port.Allocator G →
    List Binding × Port.Allocator G × Trace
  | [], ports => ([], ports, [])
  | p :: rest, ports =>
    let (port, ports, first) := match p.choice with
      | .fixed port => (port, ports, [])
      | .drawn role => Port.allocate ports role
    let (bindings, ports, others) := drawPorts rest ports
    (⟨p.variableName, .int16 port⟩ :: bindings, ports, first ++ others)

def neutralPorts (parameters : List Parameter) : List Binding :=
  parameters.map fun p => ⟨p.variableName, .int16 Port.neutral⟩

/-- The last two actions of every run. -/
def closing (v : Verdict) : List Action :=
  [if v.isSuccess then .log .info "TEST OK" else .log .error "TEST FAILED", .finish v]

def finish (c : Controller G) (evidence : List Action) (v : Verdict) : Reaction G :=
  { actions := evidence ++ closing v, controller := { c with stage := .ended v } }

def startingLine (plan : Plan) (now : Instant) : String :=
  s!"Starting {plan.name} at {now.render} (timeout {plan.budget.millis} ms)"

def start [WordSource G] (c : Controller G) (now : Instant) : Reaction G :=
  let (bindings, ports, trace) := drawPorts c.plan.parameters c.ports
  let opening := [.log .info (startingLine c.plan now), .armTimeout c.plan.budget]
  let configuring := if bindings.isEmpty then [] else [.broadcast bindings]
  let pacing := c.plan.resetCycle.toList.map fun cycle => .generate cycle.runPhase cycle.cue
  let phase := c.plan.resetCycle.map fun _ => .configured
  { actions := opening ++ configuring ++ pacing
    controller := { c with ports, phase, stage := .running }
    trace }

/-- New ports for a new phase, outside a reset cycle. -/
def restartPhase [WordSource G] (c : Controller G) : Reaction G :=
  let (bindings, ports, trace) := drawPorts c.plan.parameters c.ports
  let listed := ", ".intercalate (bindings.map (·.value.render))
  { actions := [.broadcast bindings, .log .info s!"Starting new stream at port {listed}"]
    controller := { c with ports }
    trace }

/-- The change of phase that the cue of a reset cycle brings about. -/
def turnCycle [WordSource G] (c : Controller G) (cycle : ResetCycle) : CyclePhase → Reaction G
  | .configured =>
    { actions := [.log .info "Reset ports", .broadcast (neutralPorts c.plan.parameters),
        .generate cycle.resetPhase cycle.cue]
      controller := { c with phase := some .parked } }
  | .parked =>
    let (bindings, ports, trace) := drawPorts c.plan.parameters c.ports
    { actions := [.broadcast bindings, .generate cycle.runPhase cycle.cue]
      controller := { c with ports, phase := some .configured }
      trace }

def onMessage [WordSource G] (c : Controller G) (m : Message) : Reaction G :=
  if c.plan.fails m.text then c.finish [.log .error m.render] (.fail m.render)
  else if c.plan.passes m.text then c.finish [] .pass
  else match c.cycle? with
    | some (cycle, phase) =>
      if m.text = cycle.cue then c.turnCycle cycle phase else { actions := [], controller := c }
    | none =>
      if c.plan.endsPhase m.text then c.restartPhase
      else { actions := [], controller := c }

def onTimeout (c : Controller G) (now : Instant) : Reaction G :=
  let elapsed := Decimal.twoPlaces now.seconds
  let v : Verdict := match c.plan.expiry with
    | .pass => .timeoutPass
    | .fail => .fail s!"timed out after {elapsed} s"
  c.finish [.log .info s!"Budget elapsed at {elapsed} s"] v

/-- A refused event leaves the controller as it is. -/
def handle [WordSource G] (c : Controller G) (e : Event) : Except Misuse (Reaction G) :=
  match c.stage, e with
  | .ended _, _ => .ok { actions := [], controller := c }
  | .armed, .start now => .ok (c.start now)
  | .running, .start _ => .error .alreadyStarted
  | .armed, .message _ => .error .messageBeforeStart
  | .armed, .timeout _ => .error .timeoutBeforeStart
  | .running, .message m => .ok (c.onMessage m)
  | .running, .timeout now => .ok (c.onTimeout now)

end Controller

end MoteBench
