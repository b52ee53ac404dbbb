import MoteBench.Memory.Image
import MoteBench.Port
import MoteBench.Verdict

/-!
What the bench reports as it goes. An entry holds what happened; its level, its channel, its text
and its named fields are read off it when it is written down.
-/
namespace MoteBench

open Memory

inductive Level where
  | error
  | warn
  | info
  | debug
  | trace
  deriving DecidableEq, Repr

namespace Level

/-- Zero for the most severe level. -/
def rank : Level → Nat
  | .error => 0
  | .warn => 1
  | .info => 2
  | .debug => 3
  | .trace => 4

def label : Level → String
  | .error => "ERROR"
  | .warn => "WARN"
  | .info => "INFO"
  | .debug => "DEBUG"
  | .trace => "TRACE"

end Level

/-- The part of the bench that reports. -/
inductive Channel where
  | session
  | ports
  | memory
  | broadcast
  | driver
  | world
  deriving DecidableEq, Repr

/-- The path under which a log line names its channel. -/
def Channel.path : Channel → String
  | .session => "motescript"
  | .ports => "motescript_core::ports"
  | .memory => "motescript_core::memory"
  | .broadcast => "motescript_core::broadcast"
  | .driver => "motescript_core::driver"
  | .world => "motescript_harness::sim_world"

inductive Entry where
  | loadingFeed (path : String)
  | preparing (seed : UInt64) (plan : String)
  | portDrawn (role : String) (port : Port)
  | timeoutArmed (deadline : Instant)
  /-- An audited write is about to replace a value. -/
  | replacing (node : MoteId) (name : String) (symbol : Symbol) (old new : Value)
  | readBackFailed (node : MoteId) (name : String) (cause : AccessError)
  | writeFailed (node : MoteId) (cause : AccessError)
  | broadcast (binding : Binding) (nodes failed : Nat)
  | skipping (m : Message)
  /-- A line of the controller's own log. -/
  | line (level : Level) (text : String)
  | verdict (v : Verdict) (time : Instant)
  | finished (time : Instant) (v : Verdict) (events broadcasts : Nat)
  deriving DecidableEq, Repr

abbrev Trace := List Entry

namespace Entry

def level : Entry → Level
  | .line level _ => level
  | .writeFailed .. => .error
  | .readBackFailed .. => .warn
  | .timeoutArmed _ | .broadcast .. => .debug
  | .skipping _ => .trace
  | _ => .info

def channel : Entry → Channel
  | .loadingFeed _ | .finished .. => .session
  | .portDrawn .. => .ports
  | .replacing .. | .readBackFailed .. | .writeFailed .. => .memory
  | .broadcast .. => .broadcast
  | .preparing .. | .skipping _ | .line .. | .verdict .. => .driver
  | .timeoutArmed _ => .world

def text : Entry → String
  | .loadingFeed path => "Loading feed from " ++ path
  | .preparing .. => "preparing run"
  | .portDrawn role port => s!"Using {role} protocol {port.toNat}"
  | .timeoutArmed _ => "timeout armed"
  | .replacing _ name symbol old new =>
    let place := "0x" ++ Text.hex symbol.address ++ "/" ++ toString symbol.size
    s!"Set {new.width.label} {name} (address {place}: {old.render}) to {new.render}"
  | .readBackFailed _ name cause => s!"read-back of '{name}' failed: {cause.message}"
  | .writeFailed _ cause => "ERR: " ++ cause.message
  | .broadcast .. => "broadcast complete"
  | .skipping m => "skipping " ++ m.render
  | .line _ text => text
  | .verdict v _ => v.render
  | .finished time v .. => s!"Finished at {time.render}: {v.render}"

def fields : Entry → List (String × String)
  | .preparing seed plan => [("seed", toString seed.toNat), ("plan", plan)]
  | .timeoutArmed deadline => [("deadline", deadline.render)]
  | .replacing node .. | .readBackFailed node .. | .writeFailed node _ =>
    [("node", toString node.toNat)]
  | .broadcast b nodes failed =>
    [("binding", b.render), ("nodes", toString nodes), ("failed", toString failed)]
  | .skipping m => [("time", m.time.render)]
  | .verdict _ time => [("at", time.render)]
  | .finished _ _ events broadcasts =>
    [("events", toString events), ("broadcasts", toString broadcasts)]
  | _ => []

/-- The text of an entry counts as a field of its own. -/
def fieldNames (e : Entry) : List String := "message" :: e.fields.map (·.1)

end Entry

end MoteBench
