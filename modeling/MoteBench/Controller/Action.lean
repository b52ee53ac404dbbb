import MoteBench.Trace

/-! What a controller is told and what it asks for in return. -/
namespace MoteBench

open Memory

namespace Controller

inductive Event where
  | start (now : Instant)
  | message (m : Message)
  | timeout (now : Instant)
  deriving DecidableEq, Repr

inductive Severity where
  | info
  | error
  deriving DecidableEq, Repr

def Severity.level : Severity → Level
  | .info => .info
  | .error => .error

/-- The actions of one answer are to be carried out in order, before the next event. -/
inductive Action where
  | log (severity : Severity) (line : String)
  | armTimeout (after : Span)
  | broadcast (bindings : List Binding)
  | generate (delay : Span) (payload : String)
  | finish (verdict : Verdict)
  deriving DecidableEq, Repr

/-- Events that come out of order. -/
inductive Misuse where
  | messageBeforeStart
  | timeoutBeforeStart
  | alreadyStarted
  deriving DecidableEq, Repr

def Misuse.message : Misuse → String
  | .messageBeforeStart => "controller received message before start"
  | .timeoutBeforeStart => "controller received timeout before start"
  | .alreadyStarted => "controller already started"

end Controller

end MoteBench
