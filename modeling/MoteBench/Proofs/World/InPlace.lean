import MoteBench.Proofs.World.Request

/-!
Requests carried out in place: a world is changed one part after the other, and what was changed
before a request is refused stays changed. Carried out in this way, each request still comes to what
it is served with, since every check stands before the first change.
-/
namespace MoteBench.World

open Memory

/-- A program that changes a world step by step. It can be given up at any step. -/
abbrev InPlace := EStateM Refusal World

namespace InPlace

def put (due : Instant) (p : Pending) : InPlace Unit := modify (·.put due p)

def addMote (mote : Mote) : InPlace Unit := do
  if ((← get).mote? mote.id).isSome then
    throw (.duplicateMote mote.id)
  modify fun w => { w with motes := w.motes ++ [mote] }

def schedule (m : Message) : InPlace Unit := do
  if let .mote id := m.source then
    if ((← get).mote? id).isNone then
      throw (.unknownMote id)
  put (max m.time (← get).now) (.message m.source m.text)

def armTimeout (after : Span) : InPlace Unit := do
  let requested := (← get).now + after
  match (← get).timeout with
  | .fired => throw .timeoutFired
  | .armed armed => if requested < armed then throw (.timeoutEarlier armed requested)
  | .disarmed => pure ()
  modify fun w => { w with timeout := .armed requested }
  put requested .timeout

def generate (delay : Span) (payload : String) : InPlace Unit := do
  let due := max ((← get).now + delay) (← get).lastGenerated
  modify fun w => { w with lastGenerated := due }
  put due (.message .script payload)

def next : InPlace (Option Delivery) := modifyGet (·.next)

def broadcast (mode : AccessMode) (bindings : List Binding) : InPlace Unit :=
  modify fun w => { w with motes := (broadcastAll mode bindings w.motes).1 }

/-- Carries out a request, and gives the response to it unless it is refused. -/
def perform : Request → InPlace Response
  | .addMote mote => do addMote mote; return .done
  | .schedule m => do schedule m; return .done
  | .print time id text => do schedule ⟨time, .mote id, text⟩; return .done
  | .armTimeout after => do armTimeout after; return .done
  | .generate delay payload => do generate delay payload; return .done
  | .next => return .delivery (← next)
  | .broadcast mode bindings => do broadcast mode bindings; return .done

/-- The end of a program that comes to `answer`, and changes nothing if that is a refusal. -/
def ended (w : World) : Except Refusal World → EStateM.Result Refusal World Unit
  | .ok w => .ok () w
  | .error cause => .error cause w

/-- The end of a program that comes to a response. -/
def concluded : Response × World → EStateM.Result Refusal World Response
  | (.refused cause, w) => .error cause w
  | (response, w) => .ok response w

theorem bind_get {α : Type} (f : World → InPlace α) (w : World) :
    ((get : InPlace World) >>= f) w = f w w := rfl

theorem addMote_apply (mote : Mote) (w : World) :
    addMote mote w = ended w (w.addMote mote) := by
  unfold addMote World.addMote
  rw [bind_get]
  split <;> rfl

theorem schedule_apply (m : Message) (w : World) : schedule m w = ended w (w.schedule m) := by
  obtain ⟨time, source, text⟩ := m
  cases source with
  | script => rfl
  | mote id =>
    unfold schedule World.schedule knows
    dsimp only
    rw [bind_get]
    cases w.mote? id <;> rfl

theorem armTimeout_apply (after : Span) (w : World) :
    armTimeout after w = ended w (w.armTimeout after) := by
  unfold armTimeout World.armTimeout
  rw [bind_get, bind_get]
  cases w.timeout with
  | fired => rfl
  | disarmed => rfl
  | armed armed =>
    dsimp only
    split <;> rfl

theorem return_done {p : InPlace Unit} {w : World} {answer : Except Refusal World}
    (h : p w = ended w answer) :
    (do p; return .done : InPlace Response) w = concluded (w.respond answer) := by
  change EStateM.bind p (fun _ => pure Response.done) w = _
  rw [EStateM.bind, h]
  cases answer <;> rfl

/-- Carried out in place or served as a whole, a request comes to the same. -/
theorem perform_eq (q : Request) (w : World) : perform q w = concluded (w.serve q) := by
  cases q with
  | addMote mote => exact return_done (addMote_apply mote w)
  | schedule m => exact return_done (schedule_apply m w)
  | print time id text => exact return_done (schedule_apply ⟨time, .mote id, text⟩ w)
  | armTimeout after => exact return_done (armTimeout_apply after w)
  | generate delay payload => rfl
  | next => rfl
  | broadcast mode bindings => rfl

end InPlace

end MoteBench.World
