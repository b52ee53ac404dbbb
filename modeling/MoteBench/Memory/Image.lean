import MoteBench.Memory.Value
import MoteBench.Message
import MoteBench.Text.Numeral

/-! Memory of a node as tests see it: named places in an address space, read and written by bytes. -/
namespace MoteBench.Memory

/-- Where a variable lies, and how many bytes it was declared with. -/
structure Symbol where
  address : Nat
  size : Nat
  deriving DecidableEq, Repr

inductive AccessError where
  | variableNotFound (name : String)
  | widthMismatch (name : String) (expected actual : Nat)
  | outOfBounds (address length : Nat)
  deriving DecidableEq, Repr

def AccessError.message : AccessError → String
  | .variableNotFound name => s!"could not find variable '{name}'"
  | .widthMismatch name expected actual =>
    s!"variable '{name}' is {actual} bytes wide, access needs {expected}"
  | .outOfBounds address length =>
    "access of " ++ toString length ++ " bytes at 0x" ++ Text.hex address ++ " is out of bounds"

/-- A store may leave a trace behind even when it fails, so it always answers with an image. -/
class MemoryImage (μ : Type) where
  symbol? : μ → String → Option Symbol
  load : μ → (address count : Nat) → Except AccessError (List UInt8)
  store : μ → (address : Nat) → List UInt8 → Except AccessError Unit × μ
  byteOrder : μ → ByteOrder := fun _ => .little

/-- A node that takes part in a simulation. -/
class Node (ν : Type) extends MemoryImage ν where
  id : ν → MoteId

end MoteBench.Memory
