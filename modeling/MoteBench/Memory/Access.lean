import MoteBench.Memory.Image
import MoteBench.Trace

/-!
Reading and writing variables by name. An access needs a variable of exactly its width; otherwise
memory is not touched. An audited write first reads the old value and reports it, and goes on
whether or not that reading succeeds.
-/
namespace MoteBench.Memory

variable {ν : Type}

inductive AccessMode where
  | quiet
  | audited
  deriving DecidableEq, Repr, Inhabited

/-- The symbol of a variable that has the given width. -/
def resolve [MemoryImage ν] (node : ν) (name : String) (width : Width) :
    Except AccessError Symbol :=
  match MemoryImage.symbol? node name with
  | none => .error (.variableNotFound name)
  | some symbol =>
    if symbol.size = width.bytes then .ok symbol
    else .error (.widthMismatch name width.bytes symbol.size)

def readAt [MemoryImage ν] (node : ν) (symbol : Symbol) (width : Width) :
    Except AccessError Value :=
  match MemoryImage.load node symbol.address width.bytes with
  | .error e => .error e
  | .ok bytes =>
    match Value.decode? (MemoryImage.byteOrder node) width bytes with
    | none => .error (.outOfBounds symbol.address width.bytes)
    | some v => .ok v

def read [MemoryImage ν] (node : ν) (name : String) (width : Width) : Except AccessError Value :=
  match resolve node name width with
  | .error e => .error e
  | .ok symbol => readAt node symbol width

/-- What was written, and the value it replaced if the write was audited and could read it. -/
structure WriteReport where
  symbol : Symbol
  previous : Option Value
  deriving DecidableEq, Repr

/-- The outcome of a write, with the node after it. -/
structure Attempt (ν : Type) where
  outcome : Except AccessError WriteReport
  node : ν
  trace : Trace

def Attempt.succeeded (a : Attempt ν) : Bool := a.outcome.toBool

/-- The old value of a variable that is about to be written. -/
def audit [Node ν] (node : ν) (name : String) (symbol : Symbol) (v : Value) :
    Option Value × Trace :=
  match readAt node symbol v.width with
  | .ok old => (some old, [.replacing (Node.id node) name symbol old v])
  | .error e => (none, [.readBackFailed (Node.id node) name e])

def tryWrite [Node ν] (mode : AccessMode) (node : ν) (name : String) (v : Value) : Attempt ν :=
  match resolve node name v.width with
  | .error e => ⟨.error e, node, []⟩
  | .ok symbol =>
    let (previous, trace) := match mode with
      | .quiet => (none, [])
      | .audited => audit node name symbol v
    match MemoryImage.store node symbol.address (v.encode (MemoryImage.byteOrder node)) with
    | (.error e, node) => ⟨.error e, node, trace⟩
    | (.ok (), node) => ⟨.ok ⟨symbol, previous⟩, node, trace⟩

/-- Writes, and reports the reason of a failure. -/
def write [Node ν] (mode : AccessMode) (node : ν) (name : String) (v : Value) : Attempt ν :=
  let a := tryWrite mode node name v
  match a.outcome with
  | .ok _ => a
  | .error e => { a with trace := a.trace ++ [.writeFailed (Node.id a.node) e] }

theorem outcome_write [Node ν] (mode : AccessMode) (node : ν) (name : String) (v : Value) :
    (write mode node name v).outcome = (tryWrite mode node name v).outcome := by
  unfold write
  dsimp only
  split <;> simp_all

theorem node_write [Node ν] (mode : AccessMode) (node : ν) (name : String) (v : Value) :
    (write mode node name v).node = (tryWrite mode node name v).node := by
  unfold write
  dsimp only
  split <;> rfl

end MoteBench.Memory
