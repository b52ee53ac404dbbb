import MoteBench.Broadcast
import MoteBench.Controller
import MoteBench.Simulator

/-!
A run of a test: a controller drives a simulation from its start to a verdict. Between two events
the controller names what it waits for; the run carries out every action of an answer before the
next wait, and keeps the broadcasts and the log lines for its report.
-/
namespace MoteBench

open MoteBench.Random Memory

structure BroadcastRecord where
  time : Instant
  bindings : List Binding
  deriving DecidableEq, Repr

structure Report where
  verdict : Verdict
  endedAt : Instant
  eventsDelivered : Nat
  broadcasts : List BroadcastRecord
  log : List String
  deriving DecidableEq, Repr

/-- Why a run ends without a verdict. -/
inductive RunError (ε : Type) where
  | controller (cause : Controller.Misuse)
  | simulator (cause : ε)
  | wait (cause : WaitError)
  deriving DecidableEq, Repr

def RunError.message {ε : Type} (describe : ε → String) : RunError ε → String
  | .controller cause => "controller error: " ++ cause.message
  | .simulator cause => "simulator error: " ++ describe cause
  | .wait cause => cause.message

/-- A run between two waits. -/
structure Run (G σ : Type) where
  controller : Controller G
  sim : σ
  broadcasts : Array BroadcastRecord := #[]
  log : Array String := #[]
  trace : Array Entry := #[]

/-- What a run comes to. -/
structure Outcome (σ ε : Type) where
  result : Except (RunError ε) Report
  sim : σ
  cursor : Cursor
  trace : Trace

def Delivery.toEvent : Delivery → Controller.Event
  | .message m => .message m
  | .timeout time => .timeout time

def Controller.Action.verdict? : Controller.Action → Option Verdict
  | .finish v => some v
  | _ => none

namespace Run

variable {G σ ν ε : Type} [Simulator σ ν ε]

/-- Waits for what the controller waits for. -/
def await (r : Run G σ) (c : Cursor) : Waited σ :=
  match r.controller.wait with
  | .any => c.awaitNext r.sim
  | .cue _ => c.awaitUntil r.controller.wakesOn r.sim

theorem cursor_await {r : Run G σ} {c : Cursor} {d : Delivery} (h : (r.await c).outcome = .ok d) :
    (r.await c).cursor.remaining < c.remaining := by
  unfold await at h ⊢
  split at h <;> rename_i hw
  · have taken := Cursor.cursor_awaitNext h
    simp only [Cursor.remaining, taken.2]
    omega
  · have taken := Cursor.cursor_awaitUntil h
    simp only [Cursor.remaining, taken.1]
    omega

variable [WordSource G] [Node ν]

def perform (r : Run G σ) : Controller.Action → Except ε Unit × Run G σ
  | .log severity line =>
    (.ok (), { r with
      log := r.log.push line
      trace := r.trace.push (.line severity.level line) })
  | .armTimeout after =>
    let (answer, sim, trace) := Simulator.armTimeout r.sim after
    (answer, { r with sim, trace := r.trace ++ trace })
  | .broadcast bindings =>
    let (nodes, trace) := broadcastAll r.controller.plan.access bindings (Simulator.nodes r.sim)
    let sim := Simulator.withNodes r.sim nodes
    (.ok (), { r with
      sim
      broadcasts := r.broadcasts.push ⟨Simulator.now sim, bindings⟩
      trace := r.trace ++ trace })
  | .generate delay payload =>
    let (answer, sim, trace) := Simulator.generate r.sim delay payload
    (answer, { r with sim, trace := r.trace ++ trace })
  | .finish _ => (.ok (), r)

/-- Carries out actions in order; a refused request ends the run. -/
def performAll : List Controller.Action → Run G σ → Except ε Unit × Run G σ
  | [], r => (.ok (), r)
  | action :: rest, r =>
    match r.perform action with
    | (.ok (), r) => performAll rest r
    | (.error e, r) => (.error e, r)

/-- Lets the controller answer an event; gives the verdict if the answer brings one. -/
def step (r : Run G σ) (e : Controller.Event) : Except (RunError ε) (Option Verdict) × Run G σ :=
  match r.controller.handle e with
  | .error cause => (.error (.controller cause), r)
  | .ok reaction =>
    match performAll reaction.actions
        { r with controller := reaction.controller, trace := r.trace ++ reaction.trace } with
    | (.error cause, r) => (.error (.simulator cause), r)
    | (.ok (), r) => (.ok (reaction.actions.filterMap (·.verdict?)).getLast?, r)

def fail (r : Run G σ) (c : Cursor) (e : RunError ε) : Outcome σ ε :=
  ⟨.error e, r.sim, c, r.trace.toList⟩

def close (r : Run G σ) (c : Cursor) (v : Verdict) : Outcome σ ε :=
  let time := Simulator.now r.sim
  let report : Report :=
    { verdict := v, endedAt := time, eventsDelivered := c.delivered
      broadcasts := r.broadcasts.toList, log := r.log.toList }
  ⟨.ok report, r.sim, c, (r.trace.push (.verdict v time)).toList⟩

/-- Event after event until a verdict. -/
def proceed (r : Run G σ) (c : Cursor) : Outcome σ ε :=
  let waited := r.await c
  let r := { r with sim := waited.sim, trace := r.trace ++ waited.trace }
  match h : waited.outcome with
  | .error e => r.fail waited.cursor (.wait e)
  | .ok d =>
    have := cursor_await h
    match r.step d.toEvent with
    | (.error e, r) => r.fail waited.cursor e
    | (.ok (some v), r) => r.close waited.cursor v
    | (.ok none, r) => proceed r waited.cursor
termination_by c.remaining

end Run

variable {G σ ν ε : Type} [WordSource G] [Node ν] [Simulator σ ν ε]

/-- Runs a controller, from the start event on, with at most `limit` deliveries. -/
def Controller.run (c : Controller G) (sim : σ) (cursor : Cursor := {}) : Outcome σ ε :=
  let r : Run G σ := { controller := c, sim }
  match r.step (.start (Simulator.now sim)) with
  | (.error e, r) => r.fail cursor e
  | (.ok (some v), r) => r.close cursor v
  | (.ok none, r) => r.proceed cursor

/-- Runs a plan on a simulation, with ports drawn from the simulation's own seed. -/
def Plan.run (plan : Plan) (sim : σ) (cursor : Cursor := {}) : Outcome σ ε :=
  let seed := Simulator.seed sim
  let outcome := (Controller.ofSeed plan seed).run sim cursor
  { outcome with trace := .preparing seed plan.name :: outcome.trace }

end MoteBench
