import MoteBench.CommandLine.Arguments
import MoteBench.CommandLine.Filter
import MoteBench.Feed
import MoteBench.Run
import MoteBench.Text.Lines
import MoteBench.World

/-!
What the program does for a command line: it replays a feed on a world that has all motes of the
feed, runs the plan, and logs what passes the filter. It succeeds if the verdict is a success.
-/
namespace MoteBench.CommandLine

def versionLine : String := "motescript 0.1.0"

/-- How the program ends: its exit code, and the lines it wrote. -/
structure Ending where
  exitCode : UInt8
  lines : List String
  deriving DecidableEq, Repr

/-- A control character that could upset a terminal is written as an escape. -/
def escapeControl (c : Char) : List Char :=
  let n := c.toNat
  if n ∈ [0x07, 0x08, 0x0c, 0x1b, 0x7f] then
    "\\x".toList ++ [Nat.digitChar (n / 16), Nat.digitChar (n % 16)]
  else if 0x80 ≤ n ∧ n ≤ 0x9f then ("\\u\x7b" ++ Text.hex n ++ "\x7d").toList
  else [c]

def escaped (s : String) : String := .ofList (s.toList.flatMap escapeControl)

def entryText (e : Entry) : String :=
  let fields := e.fields.map fun f => " " ++ f.1 ++ "=" ++ f.2
  e.level.label ++ " " ++ e.channel.path ++ ": " ++ escaped e.text ++ String.join fields

/-- The lines of a trace that pass a filter; an entry with line feeds in it takes several. -/
def logLines (f : Filter) (trace : Trace) : List String :=
  (trace.filter f.admits).flatMap fun e => Text.linesOf (entryText e ++ "\n")

namespace Session

/-- The highest number of a mote in a feed, zero if none is in it. -/
def highestMote : List Message → Nat
  | [] => 0
  | m :: rest =>
    match m.source with
    | .mote id => max id.toNat (highestMote rest)
    | .script => highestMote rest

/-- The world in which a feed is replayed. -/
def setting (a : Arguments) (feed : List Message) : Except World.Refusal World :=
  feed.foldlM World.schedule (.withMotes a.seed (max a.motes (highestMote feed)))

def plan (a : Arguments) : Plan :=
  { a.plan with
    budget := a.budget.getD a.plan.budget
    access := if a.audited then .audited else .quiet }

def cursor (a : Arguments) : Cursor :=
  match a.maxEvents with
  | none => {}
  | some limit => { limit }

def finished (report : Report) : Entry :=
  .finished report.endedAt report.verdict report.eventsDelivered report.broadcasts.length

/-- The outcome of a replay is a report, or nothing if something went wrong on the way. -/
def replay (a : Arguments) (feed : List Message) : Option Report × Trace :=
  match setting a feed with
  | .error _ => (none, [])
  | .ok world =>
    let outcome : Outcome World World.Refusal := (plan a).run world (cursor a)
    match outcome.result with
    | .error _ => (none, outcome.trace)
    | .ok report => (some report, outcome.trace ++ [finished report])

/-- A session, given the contents of the feed that is named in the arguments. -/
def outcome (a : Arguments) (contents : Option ByteArray) : Option Report × Trace :=
  match a.feed with
  | none => replay a []
  | some path =>
    match Feed.load contents with
    | .error _ => (none, [.loadingFeed path])
    | .ok feed =>
      let (report, trace) := replay a feed
      (report, .loadingFeed path :: trace)

def exitCode (report : Option Report) : UInt8 :=
  if report.any (·.verdict.isSuccess) then 0 else 1

/-- A filter that breaks a character ends the program before the session. -/
def run (a : Arguments) (contents : Option ByteArray) : Ending :=
  match Filter.parse? a.logLevel with
  | none => ⟨101, []⟩
  | some filter =>
    let (report, trace) := outcome a contents
    ⟨exitCode report, logLines filter trace⟩

end Session

def usageLine : String :=
  "usage: motescript [-p PLAN] [-s SEED] [-m MOTES] [--timeout-ms MS] [-f FEED] [--verbose-memory] "
    ++ "[--max-events COUNT] [--log-level FILTER] [-V] [-h]"

namespace Request

/-- The path of the feed that has to be at hand before a request is answered. -/
def feed? : Request → Option String
  | .run a => a.feed
  | _ => none

def answer (contents : Option ByteArray) : Request → Ending
  | .run a => Session.run a contents
  | .version => ⟨0, [versionLine]⟩
  | .help => ⟨0, [usageLine]⟩
  | .misuse => ⟨2, []⟩

end Request

end MoteBench.CommandLine
