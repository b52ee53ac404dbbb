import MoteBench.Proofs.Memory.Access
import MoteBench.Proofs.Memory.Layout

/-!
Writing to a memory of which little is known. Variables may lie anywhere, over each other or outside
of the memory, and reading may fail; a store fills its place or changes nothing. A write then changes
the bytes of its value or none, and an audit makes no difference to that.
-/
namespace MoteBench

namespace Memory

variable {ν : Type}

/-- The bytes of a memory. A store puts its bytes at their place and changes nothing else, or it is
refused and changes nothing at all. -/
structure Storage (ν : Type) [MemoryImage ν] where
  byte? : ν → Nat → Option UInt8
  byte?_stored {node node' : ν} {address : Nat} {bs : List UInt8}
    (h : MemoryImage.store node address bs = (.ok (), node')) (place : Nat) :
    byte? node' place =
      if address ≤ place ∧ place < address + bs.length then bs[place - address]? else byte? node place
  eq_of_refused {node node' : ν} {address : Nat} {bs : List UInt8} {cause : AccessError}
    (h : MemoryImage.store node address bs = (.error cause, node')) : node' = node

/-- What a write of `v` to the variable comes to. The store is asked last, and its own reason stands if
it refuses. -/
inductive Ruling [MemoryImage ν] (node : ν) (name : String) (v : Value) :
    Except AccessError Symbol → Prop
  | unresolved : MemoryImage.symbol? node name = none →
      Ruling node name v (.error (.variableNotFound name))
  | mismatched {symbol : Symbol} : MemoryImage.symbol? node name = some symbol →
      symbol.size ≠ v.width.bytes →
      Ruling node name v (.error (.widthMismatch name v.width.bytes symbol.size))
  | refused {symbol : Symbol} {cause : AccessError} : MemoryImage.symbol? node name = some symbol →
      symbol.size = v.width.bytes →
      (MemoryImage.store node symbol.address (v.encode (MemoryImage.byteOrder node))).1 =
        .error cause →
      Ruling node name v (.error cause)
  | stored {symbol : Symbol} : MemoryImage.symbol? node name = some symbol →
      symbol.size = v.width.bytes →
      (MemoryImage.store node symbol.address (v.encode (MemoryImage.byteOrder node))).1 = .ok () →
      Ruling node name v (.ok symbol)

section Image

variable [MemoryImage ν] {node : ν} {name : String}

/-- There is one ruling for each write. -/
theorem Ruling.unique {v : Value} {r r' : Except AccessError Symbol} (h : Ruling node name v r)
    (h' : Ruling node name v r') : r = r' := by
  cases h <;> cases h' <;> grind

end Image

section Access

variable [Node ν] {node : ν} {name : String} {v : Value}

/-- A write in either mode comes to what is ruled. -/
theorem ruling_tryWrite (mode : AccessMode) (node : ν) (name : String) (v : Value) :
    Ruling node name v ((tryWrite mode node name v).outcome.map (·.symbol)) := by
  cases hs : MemoryImage.symbol? node name with
  | none =>
    rw [tryWrite_of_unresolved (resolve_of_none hs v.width)]
    exact .unresolved hs
  | some symbol =>
    by_cases hw : symbol.size = v.width.bytes
    · rw [(tryWrite_of_resolved (resolve_of_size_eq hs hw) mode).1]
      cases ha : (MemoryImage.store node symbol.address (v.encode (MemoryImage.byteOrder node))).1 with
      | error cause => exact .refused hs hw ha
      | ok done => exact .stored hs hw ha
    · rw [tryWrite_of_unresolved (resolve_of_size_ne hs hw)]
      exact .mismatched hs hw

/-- A failed write changes nothing. -/
theorem Storage.node_tryWrite_of_error (storage : Storage ν) {mode : AccessMode}
    {cause : AccessError} (h : (tryWrite mode node name v).outcome = .error cause) :
    (tryWrite mode node name v).node = node := by
  obtain hnode | ⟨address, bs, hrefused⟩ := tryWrite_eq_error h
  · exact hnode
  · exact storage.eq_of_refused hrefused

/-- How the value `v` is written to the variable `name`. -/
structure Guarded (storage : Storage ν) (node : ν) (name : String) (v : Value) : Prop where
  outcome : ∀ mode r, (tryWrite mode node name v).outcome.map (·.symbol) = r ↔ Ruling node name v r
  unchanged : ∀ mode cause, (tryWrite mode node name v).outcome = .error cause →
    (tryWrite mode node name v).node = node
  /-- All that changes are the bytes of the value. -/
  stored : ∀ mode report, (tryWrite mode node name v).outcome = .ok report → ∀ place,
    storage.byte? (tryWrite mode node name v).node place =
      if report.symbol.address ≤ place ∧ place < report.symbol.address + v.width.bytes then
        (v.encode (MemoryImage.byteOrder node))[place - report.symbol.address]?
      else storage.byte? node place
  /-- With or without an audit, a write comes to the same and leaves the same memory. -/
  alike : (tryWrite .audited node name v).outcome.map (·.symbol) =
      (tryWrite .quiet node name v).outcome.map (·.symbol) ∧
    (tryWrite .audited node name v).node = (tryWrite .quiet node name v).node
  quiet : ∀ report, (tryWrite .quiet node name v).outcome = .ok report → report.previous = none
  /-- An audit reports the value as it could be read before, or none if it could not. -/
  audited : ∀ report, (tryWrite .audited node name v).outcome = .ok report →
    report.previous = (read node name v.width).toOption

/-- Every write is guarded, whatever the memory. -/
theorem tryWrite_guarded (storage : Storage ν) (node : ν) (name : String) (v : Value) :
    Guarded storage node name v := by
  have hruling := fun mode => ruling_tryWrite mode node name v
  constructor
  case outcome =>
    intro mode r
    constructor
    · rintro rfl
      exact hruling mode
    · exact (hruling mode).unique
  case unchanged => exact fun mode cause hfailed => storage.node_tryWrite_of_error hfailed
  case stored =>
    intro mode report hok place
    rw [storage.byte?_stored (tryWrite_eq_ok hok).1 place, Value.length_encode]
  case alike =>
    exact ⟨outcome_tryWrite .audited .quiet node name v, node_tryWrite .audited .quiet node name v⟩
  case quiet => exact fun report hok => (tryWrite_eq_ok hok).2
  case audited => exact fun report hok => (tryWrite_eq_ok hok).2

end Access

/-! Flat memories are storages, also when variables lie over each other or beyond the end. -/

namespace Ram

def byte? (ram : Ram) (place : Nat) : Option UInt8 :=
  if base ≤ place then ram.bytes[place - base]? else none

theorem byte?_store {ram ram' : Ram} {address : Nat} {bs : List UInt8}
    (h : ram.store address bs = (.ok (), ram')) (place : Nat) : ram'.byte? place =
      if address ≤ place ∧ place < address + bs.length then bs[place - address]?
      else ram.byte? place := by
  unfold store at h
  split at h
  · cases h
  · rename_i start hstart
    obtain ⟨rfl, hfits⟩ := offset?_eq_some_iff.mp hstart
    obtain rfl := (Prod.mk.inj h).2
    simp only [byte?, getElem?_splice hfits]
    generalize base = first
    by_cases hplace : first ≤ place
    · have hiff : start ≤ place - first ∧ place - first < start + bs.length ↔
          first + start ≤ place ∧ place < first + start + bs.length := by omega
      have hindex : place - first - start = place - (first + start) := by omega
      simp only [if_pos hplace, hiff, hindex]
    · rw [if_neg hplace, if_neg hplace, if_neg (by omega)]

theorem store_eq_error {ram ram' : Ram} {address : Nat} {bs : List UInt8} {cause : AccessError}
    (h : ram.store address bs = (.error cause, ram')) : ram' = ram := by
  unfold store at h
  split at h
  · exact (Prod.mk.inj h).2.symm
  · cases h

end Ram

end Memory

open Memory

namespace Mote

def storage : Storage Mote where
  byte? mote := mote.ram.byte?
  byte?_stored h place := by
    obtain ⟨hanswer, rfl⟩ := Prod.mk.inj h
    exact Ram.byte?_store (Prod.ext hanswer rfl) place
  eq_of_refused {mote mote' address bs cause} h := by
    obtain ⟨hanswer, rfl⟩ := Prod.mk.inj h
    have hram : (mote.ram.store address bs).2 = mote.ram :=
      Ram.store_eq_error (Prod.ext hanswer rfl)
    exact congrArg (fun ram => { mote with ram }) hram

/-- A mote of which nothing can be read. -/
structure Sealed where
  mote : Mote
  deriving DecidableEq

namespace Sealed

instance : Node Sealed where
  symbol? node := MemoryImage.symbol? node.mote
  load _ address count := .error (.outOfBounds address count)
  store node address bs :=
    let (answer, mote) := MemoryImage.store node.mote address bs
    (answer, ⟨mote⟩)
  byteOrder node := MemoryImage.byteOrder node.mote
  id node := node.mote.id

def storage : Storage Sealed where
  byte? node := Mote.storage.byte? node.mote
  byte?_stored h place := by
    obtain ⟨hanswer, rfl⟩ := Prod.mk.inj h
    exact Mote.storage.byte?_stored (Prod.ext hanswer rfl) place
  eq_of_refused h := by
    obtain ⟨hanswer, rfl⟩ := Prod.mk.inj h
    exact congrArg Sealed.mk (Mote.storage.eq_of_refused (Prod.ext hanswer rfl))

/-- Two variables share a byte and a third lies outside; the audit cannot read any of them. -/
theorem tryWrite_guarded_unreadable :
    let ram : Ram :=
      { symbols := [("a", ⟨Ram.base, 2⟩), ("b", ⟨Ram.base + 1, 2⟩), ("c", ⟨0, 2⟩)]
        bytes := [1, 2, 3] }
    let node : Sealed := ⟨{ id := 1, ram }⟩
    Guarded storage node "b" (.int16 0x0504) ∧
      (tryWrite .audited node "b" (.int16 0x0504)).outcome = .ok ⟨⟨Ram.base + 1, 2⟩, none⟩ ∧
      (tryWrite .audited node "b" (.int16 0x0504)).node.mote.ram.bytes = [1, 4, 5] ∧
      (tryWrite .audited node "c" (.int16 0x0504)).outcome = .error (.outOfBounds 0 2) := by
  intro ram node
  exact ⟨tryWrite_guarded storage node "b" (.int16 0x0504), rfl, by decide, rfl⟩

end Sealed

end Mote

end MoteBench
