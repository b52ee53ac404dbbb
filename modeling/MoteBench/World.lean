import MoteBench.Agenda
import MoteBench.Mote
import MoteBench.Simulator

/-!
A simulated world, the same on every run from the same beginning: motes, a clock, and an agenda of
messages and timeouts. The clock moves only when something is taken from the agenda.
-/
namespace MoteBench

/-- A timeout may be armed again for the same time or a later one, until it fires. -/
inductive TimeoutState where
  | disarmed
  | armed (deadline : Instant)
  | fired
  deriving DecidableEq, Repr

inductive Pending where
  | message (source : Source) (text : String)
  | timeout
  deriving DecidableEq, Repr

structure World where
  seed : UInt64
  now : Instant := .zero
  motes : List Mote := []
  agenda : Agenda Pending := {}
  timeout : TimeoutState := .disarmed
  lastGenerated : Instant := .zero

namespace World

/-- Why a world refuses a request; it is then as it was before. -/
inductive Refusal where
  | unknownMote (id : MoteId)
  | duplicateMote (id : MoteId)
  | timeoutEarlier (armed requested : Instant)
  | timeoutFired
  deriving DecidableEq, Repr

def Refusal.message : Refusal → String
  | .unknownMote id => s!"unknown mote {id.toNat}"
  | .duplicateMote id => s!"duplicate mote {id.toNat}"
  | .timeoutEarlier armed requested =>
    s!"timeout already armed for {armed.render}, cannot move it to {requested.render}"
  | .timeoutFired => "timeout already fired"

/-- A world of `count` motes with the firmware's variables, numbered from one. -/
def withMotes (seed : UInt64) (count : Nat) : World :=
  { seed, motes := (List.range count).map fun i => .firmware (.ofNat (i + 1)) }

def mote? (w : World) (id : MoteId) : Option Mote := w.motes.find? (·.id = id)

def addMote (w : World) (mote : Mote) : Except Refusal World :=
  if (w.mote? mote.id).isSome then .error (.duplicateMote mote.id)
  else .ok { w with motes := w.motes ++ [mote] }

def put (w : World) (due : Instant) (p : Pending) : World :=
  { w with agenda := w.agenda.push due p }

/-- Whether the world has the source of a message. -/
def knows (w : World) : Source → Bool
  | .mote id => (w.mote? id).isSome
  | .script => true

/-- Puts a message on the agenda; one from the past is due at once. -/
def schedule (w : World) (m : Message) : Except Refusal World :=
  match m.source, w.knows m.source with
  | .mote id, false => .error (.unknownMote id)
  | source, _ => .ok (w.put (max m.time w.now) (.message source m.text))

def print (w : World) (time : Instant) (id : MoteId) (text : String) : Except Refusal World :=
  w.schedule ⟨time, .mote id, text⟩

def armTimeout (w : World) (after : Span) : Except Refusal World :=
  let requested := w.now + after
  let arm := { w.put requested .timeout with timeout := .armed requested }
  match w.timeout with
  | .fired => .error .timeoutFired
  | .armed armed => if requested < armed then .error (.timeoutEarlier armed requested) else .ok arm
  | .disarmed => .ok arm

/-- Puts a message of the script's own on the agenda, never before one generated earlier. -/
def generate (w : World) (delay : Span) (payload : String) : World :=
  let due := max (w.now + delay) w.lastGenerated
  { w.put due (.message .script payload) with lastGenerated := due }

/-- Takes the next delivery from the agenda. A timeout that was armed again for later is passed
over, but the clock has moved to it. -/
def next (w : World) : Option Delivery × World :=
  match h : w.agenda.pop? with
  | none => (none, w)
  | some (item, agenda) =>
    have := Agenda.size_of_pop? h
    let w' := { w with agenda, now := max w.now item.due }
    match item.payload with
    | .message source text => (some (.message ⟨w'.now, source, text⟩), w')
    | .timeout =>
      if w.timeout = .armed item.due then
        (some (.timeout w'.now), { w' with timeout := .fired })
      else next w'
termination_by w.agenda.size

/-- The state after a request that may be refused. -/
def settle (w : World) (trace : World → Trace) :
    Except Refusal World → Except Refusal Unit × World × Trace
  | .error e => (.error e, w, [])
  | .ok w => (.ok (), w, trace w)

instance : Simulator World Mote Refusal where
  now := now
  seed := seed
  armTimeout w after := w.settle (fun _ => [.timeoutArmed (w.now + after)]) (w.armTimeout after)
  generate w delay payload := (.ok (), w.generate delay payload, [])
  next := next
  nodes := motes
  withNodes w motes := { w with motes }

end World

end MoteBench
