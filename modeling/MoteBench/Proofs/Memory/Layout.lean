import Mathlib.Data.List.Pairwise
import MoteBench.Mote

/-!
How variables lie in a memory. Declared one after the other they lie inside it and apart from each
other, so that a store to one is read back from it and leaves all others as they are.
-/
namespace MoteBench

namespace Memory.Ram

/-- No variable reaches beyond the memory or into another. -/
structure LaidOut (ram : Ram) : Prop where
  inside : ∀ entry ∈ ram.symbols, base ≤ entry.2.address ∧
    entry.2.address + entry.2.size ≤ base + ram.bytes.length
  apart : ram.symbols.Pairwise fun a b => a.2.address + a.2.size ≤ b.2.address

def Symbol.Apart (s t : Symbol) : Prop :=
  s.address + s.size ≤ t.address ∨ t.address + t.size ≤ s.address

variable {ram : Ram} {name name' : String} {symbol symbol' : Symbol}

theorem mem_of_symbol? (h : ram.symbol? name = some symbol) : (name, symbol) ∈ ram.symbols := by
  obtain ⟨front, back, heq, -⟩ := List.lookup_eq_some_iff.mp h
  simp [heq]

theorem LaidOut.symbols_apart (h : ram.LaidOut) (hs : ram.symbol? name = some symbol)
    (hs' : ram.symbol? name' = some symbol') (hne : name ≠ name') : Symbol.Apart symbol symbol' := by
  obtain ⟨front, back, heq, -⟩ := List.lookup_eq_some_iff.mp hs
  have hapart := h.apart
  have hmem := mem_of_symbol? hs'
  rw [heq] at hapart hmem
  obtain ⟨-, hback, hfront⟩ := List.pairwise_append.mp hapart
  rcases List.mem_append.mp hmem with hmem | hmem
  · exact .inr (hfront _ hmem _ List.mem_cons_self)
  · rcases List.mem_cons.mp hmem with hself | hmem
    · exact absurd (Prod.mk.inj hself).1.symm hne
    · exact .inl ((List.pairwise_cons.mp hback).1 _ hmem)

theorem define_of_some (h : ram.symbol? name = some symbol) (width : Width) :
    ram.define name width = (symbol, ram) := by
  rw [define, h]

theorem define_of_none (h : ram.symbol? name = none) (width : Width) :
    ram.define name width =
      (⟨base + ram.bytes.length + ram.padding width.bytes, width.bytes⟩,
        { ram with
          symbols := ram.symbols ++
            [(name, ⟨base + ram.bytes.length + ram.padding width.bytes, width.bytes⟩)]
          bytes := ram.bytes ++ .replicate (ram.padding width.bytes + width.bytes) 0 }) := by
  rw [define, h]

theorem laidOut_empty (order : ByteOrder) : LaidOut { order } := ⟨by simp, .nil⟩

/-- A new variable lies behind all others. -/
theorem LaidOut.define (h : ram.LaidOut) (name : String) (width : Width) :
    (ram.define name width).2.LaidOut := by
  cases hs : ram.symbol? name with
  | some symbol =>
    rw [define_of_some hs]
    exact h
  | none =>
    rw [define_of_none hs]
    refine ⟨fun entry he => ?_, List.pairwise_append.mpr ⟨h.apart, by simp, ?_⟩⟩
    · simp only [List.length_append, List.length_replicate]
      rcases List.mem_append.mp he with he | he
      · have := h.inside entry he
        omega
      · obtain rfl := List.mem_singleton.mp he
        dsimp only
        omega
    · intro a ha b hb
      obtain rfl := List.mem_singleton.mp hb
      have := h.inside a ha
      dsimp only
      omega

/-- A layout depends on the variables and the number of bytes only. -/
theorem LaidOut.of_eq {ram' : Ram} (h : ram.LaidOut) (hsymbols : ram'.symbols = ram.symbols)
    (hlength : ram'.bytes.length = ram.bytes.length) : ram'.LaidOut := by
  refine ⟨?_, ?_⟩
  · rw [hsymbols, hlength]
    exact h.inside
  · rw [hsymbols]
    exact h.apart

theorem LaidOut.store (h : ram.LaidOut) (address : Nat) (bs : List UInt8) :
    (ram.store address bs).2.LaidOut :=
  h.of_eq (symbols_store ram address bs) (length_store ram address bs)

/-- All bytes of a variable are there. -/
theorem LaidOut.offset?_eq (h : ram.LaidOut) (hs : ram.symbol? name = some symbol) :
    ram.offset? symbol.address symbol.size = some (symbol.address - base) := by
  have := h.inside _ (mem_of_symbol? hs)
  rw [offset?_eq_some_iff]
  dsimp only at this
  omega

/-! Bytes in the middle of a list replaced by as many others. -/

theorem getElem?_splice {l bs : List UInt8} {start : Nat} (h : start + bs.length ≤ l.length)
    (i : Nat) : (l.take start ++ bs ++ l.drop (start + bs.length))[i]? =
      if start ≤ i ∧ i < start + bs.length then bs[i - start]? else l[i]? := by
  simp only [List.getElem?_append, List.getElem?_drop, List.getElem?_take, List.length_append,
    List.length_take]
  grind

theorem load_store_self {address : Nat} {bs : List UInt8} {start : Nat}
    (h : ram.offset? address bs.length = some start) :
    (ram.store address bs).1 = .ok () ∧ (ram.store address bs).2.load address bs.length = .ok bs := by
  have hlength := length_store ram address bs
  obtain ⟨rfl, hfits⟩ := offset?_eq_some_iff.mp h
  have hafter : (ram.store (base + start) bs).2.offset? (base + start) bs.length = some start := by
    rw [offset?_eq_some_iff]
    omega
  have hbytes : (ram.store (base + start) bs).2.bytes =
      ram.bytes.take start ++ bs ++ ram.bytes.drop (start + bs.length) := by rw [Ram.store, h]
  refine ⟨by rw [Ram.store, h], ?_⟩
  rw [load, hafter, hbytes]
  refine congrArg Except.ok (List.ext_getElem? fun i => ?_)
  rw [List.getElem?_take, List.getElem?_drop, getElem?_splice hfits]
  grind

/-- A store does not reach beyond the bytes that it is for. -/
theorem load_store_apart {address address' count : Nat} {bs : List UInt8}
    (h : address + bs.length ≤ address' ∨ address' + count ≤ address) :
    (ram.store address bs).2.load address' count = ram.load address' count := by
  cases hs : ram.offset? address bs.length with
  | none => rw [Ram.store, hs]
  | some start =>
    obtain ⟨rfl, hfits⟩ := offset?_eq_some_iff.mp hs
    have hlength := length_store ram (base + start) bs
    have hoffset : (ram.store (base + start) bs).2.offset? address' count =
        ram.offset? address' count := by rw [offset?, offset?, hlength]
    have hbytes : (ram.store (base + start) bs).2.bytes =
        ram.bytes.take start ++ bs ++ ram.bytes.drop (start + bs.length) := by rw [Ram.store, hs]
    rw [load, load, hoffset, hbytes]
    cases ho : ram.offset? address' count with
    | none => rfl
    | some start' =>
      obtain ⟨rfl, -⟩ := offset?_eq_some_iff.mp ho
      refine congrArg Except.ok (List.ext_getElem? fun i => ?_)
      simp only [List.getElem?_take, List.getElem?_drop, getElem?_splice hfits]
      grind

end Memory.Ram

namespace Mote

open Memory

/-- Motes that come about from an empty one: variables are declared, bytes are stored, and the byte
order is chosen. -/
inductive Made : Mote → Prop where
  | empty (id : MoteId) : Made { id }
  | define {mote : Mote} (h : Made mote) (name : String) (width : Width) :
      Made (mote.define name width).2
  | store {mote : Mote} (h : Made mote) (address : Nat) (bs : List UInt8) :
      Made (MemoryImage.store mote address bs).2
  | withByteOrder {mote : Mote} (h : Made mote) (order : ByteOrder) : Made (mote.withByteOrder order)

theorem made_firmware (id : MoteId) : (firmware id).Made :=
  (((Made.empty id).define _ _).define _ _).define _ _

theorem Made.laidOut {mote : Mote} (h : mote.Made) : mote.ram.LaidOut := by
  induction h with
  | empty id => exact Ram.laidOut_empty _
  | define h name width ih => exact ih.define name width
  | store h address bs ih => exact ih.store address bs
  | withByteOrder h order ih => exact ih.of_eq rfl rfl

/-- Every variable has the size of some width. -/
theorem Made.exists_width {mote : Mote} (h : mote.Made) :
    ∀ entry ∈ mote.ram.symbols, ∃ width : Width, entry.2.size = width.bytes := by
  induction h with
  | empty id => simp
  | @define mote h name width ih =>
    change ∀ entry ∈ (mote.ram.define name width).2.symbols, _
    cases hs : mote.ram.symbol? name with
    | some symbol =>
      rw [Ram.define_of_some hs]
      exact ih
    | none =>
      rw [Ram.define_of_none hs]
      intro entry he
      rcases List.mem_append.mp he with he | he
      · exact ih entry he
      · obtain rfl := List.mem_singleton.mp he
        exact ⟨width, rfl⟩
  | @store mote h address bs ih =>
    have hsymbols : (MemoryImage.store mote address bs).2.ram.symbols = mote.ram.symbols :=
      Ram.symbols_store mote.ram address bs
    rwa [hsymbols]
  | withByteOrder h order ih => exact ih

end Mote

end MoteBench
