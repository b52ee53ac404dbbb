import MoteBench.Run
import MoteBench.World

/-! A whole test in one value: a world to build, a plan to run on it, and a judgement of the end. -/
namespace MoteBench

/-- Judges the final world and the report; an error says what is wrong with them. -/
abbrev Oracle := World → Report → Except String Unit

/-- Motes with the firmware's variables are numbered from one; extra motes come after them. -/
structure Scenario where
  plan : Plan
  seed : UInt64 := 12345
  motes : Nat := 3
  extraMotes : List Mote := []
  messages : List Message := []
  eventLimit : Option Nat := none
  oracle : Option Oracle := none

namespace Scenario

inductive Failure where
  | world (cause : World.Refusal)
  | run (cause : RunError World.Refusal)
  | oracle (reason : String)
  deriving DecidableEq, Repr

def Failure.message : Failure → String
  | .world cause => cause.message
  | .run cause => cause.message World.Refusal.message
  | .oracle reason => "oracle failed: " ++ reason

/-- How a scenario ended: what the oracle made of it, and what it was shown if the plan came to a
verdict. -/
structure Ending where
  result : Except Failure Report
  world? : Option World := none
  report? : Option Report := none
  trace : Trace := []

/-- The world in which the plan starts. -/
def setting (s : Scenario) : Except World.Refusal World := do
  let world ← s.extraMotes.foldlM World.addMote (.withMotes s.seed s.motes)
  s.messages.foldlM World.schedule world

def cursor (s : Scenario) : Cursor :=
  match s.eventLimit with
  | none => {}
  | some limit => { limit }

def judge (s : Scenario) (world : World) (report : Report) : Except Failure Report :=
  match s.oracle with
  | none => .ok report
  | some oracle =>
    match oracle world report with
    | .error reason => .error (.oracle reason)
    | .ok () => .ok report

def run (s : Scenario) : Ending :=
  match s.setting with
  | .error e => { result := .error (.world e) }
  | .ok world =>
    let outcome : Outcome World World.Refusal := s.plan.run world s.cursor
    match outcome.result with
    | .error e => { result := .error (.run e), world? := some outcome.sim, trace := outcome.trace }
    | .ok report =>
      { result := s.judge outcome.sim report, world? := some outcome.sim, report? := some report
        trace := outcome.trace }

end Scenario

end MoteBench
