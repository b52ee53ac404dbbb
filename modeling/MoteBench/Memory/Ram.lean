import MoteBench.Memory.Image

/-!
A flat memory with a table of variables. A new variable is placed behind all others, at the next
multiple of its size, and reads as zero.
-/
namespace MoteBench.Memory

/-- Variables stand in the order of their declaration; bytes begin at `Ram.base`. -/
structure Ram where
  symbols : List (String × Symbol) := []
  bytes : List UInt8 := []
  order : ByteOrder := .little
  deriving DecidableEq, Repr

namespace Ram

/-- The address of the first byte. -/
def base : Nat := 0x1c00

def symbol? (ram : Ram) (name : String) : Option Symbol := ram.symbols.lookup name

/-- How many bytes are skipped so that the next variable of the given size is aligned. -/
def padding (ram : Ram) (size : Nat) : Nat := (size - ram.bytes.length % size) % size

/-- Declares a variable. A name that is already declared keeps its place and width. -/
def define (ram : Ram) (name : String) (width : Width) : Symbol × Ram :=
  match ram.symbol? name with
  | some symbol => (symbol, ram)
  | none =>
    let gap := ram.padding width.bytes
    let symbol := ⟨base + ram.bytes.length + gap, width.bytes⟩
    (symbol, { ram with
      symbols := ram.symbols ++ [(name, symbol)]
      bytes := ram.bytes ++ .replicate (gap + width.bytes) 0 })

/-- The offset at which `count` bytes from `address` on lie, if all of them do. -/
def offset? (ram : Ram) (address count : Nat) : Option Nat :=
  if base ≤ address ∧ address - base + count ≤ ram.bytes.length then some (address - base) else none

def load (ram : Ram) (address count : Nat) : Except AccessError (List UInt8) :=
  match ram.offset? address count with
  | none => .error (.outOfBounds address count)
  | some start => .ok ((ram.bytes.drop start).take count)

def store (ram : Ram) (address : Nat) (bs : List UInt8) : Except AccessError Unit × Ram :=
  match ram.offset? address bs.length with
  | none => (.error (.outOfBounds address bs.length), ram)
  | some start =>
    (.ok (), { ram with bytes := ram.bytes.take start ++ bs ++ ram.bytes.drop (start + bs.length) })

instance : MemoryImage Ram := ⟨symbol?, load, store, (·.order)⟩

theorem offset?_eq_some_iff {ram : Ram} {address count start : Nat} :
    ram.offset? address count = some start ↔
      address = base + start ∧ start + count ≤ ram.bytes.length := by
  unfold offset?
  split
  · simp only [Option.some.injEq]
    omega
  · simp only [reduceCtorEq, false_iff]
    omega

theorem length_load {ram : Ram} {address count : Nat} {bs : List UInt8}
    (h : ram.load address count = .ok bs) : bs.length = count := by
  unfold load at h
  split at h
  · simp at h
  · rename_i start hs
    have := (offset?_eq_some_iff.1 hs).2
    obtain rfl := Except.ok.inj h
    rw [List.length_take, List.length_drop]
    omega

theorem length_store (ram : Ram) (address : Nat) (bs : List UInt8) :
    (ram.store address bs).2.bytes.length = ram.bytes.length := by
  unfold store
  split
  · rfl
  · rename_i start hs
    have := (offset?_eq_some_iff.1 hs).2
    simp only [List.length_append, List.length_take, List.length_drop]
    omega

theorem symbols_store (ram : Ram) (address : Nat) (bs : List UInt8) :
    (ram.store address bs).2.symbols = ram.symbols := by
  unfold store
  split <;> rfl

end Ram

end MoteBench.Memory
