import Mathlib.Data.List.Induction
import MoteBench.Proofs.Broadcast
import MoteBench.Proofs.Memory.Layout

/-!
What bindings make of the memory of a mote. A variable that is bound with its own width reads as the
last value it was bound to, and all others read as before.
-/
namespace MoteBench

open Memory

theorem Memory.Width.bytes_injective : Function.Injective Width.bytes := by
  intro w w' h
  cases w <;> cases w' <;> first | rfl | cases h

namespace Mote

/-- A later state of a mote, which may differ from the one before in the contents of its memory. -/
structure Same (before after : Mote) : Prop where
  id : after.id = before.id
  symbols : after.ram.symbols = before.ram.symbols
  order : after.ram.order = before.ram.order
  length : after.ram.bytes.length = before.ram.bytes.length

theorem Same.refl (mote : Mote) : Same mote mote := ⟨rfl, rfl, rfl, rfl⟩

theorem Same.trans {a b c : Mote} (h : Same a b) (h' : Same b c) : Same a c :=
  ⟨h'.id.trans h.id, h'.symbols.trans h.symbols, h'.order.trans h.order, h'.length.trans h.length⟩

theorem same_store (mote : Mote) (address : Nat) (bs : List UInt8) :
    Same mote (MemoryImage.store mote address bs).2 where
  id := rfl
  symbols := Ram.symbols_store mote.ram address bs
  order := by
    change (mote.ram.store address bs).2.order = mote.ram.order
    unfold Ram.store
    split <;> rfl
  length := Ram.length_store mote.ram address bs

theorem Same.laidOut {before after : Mote} (h : Same before after) (hb : before.ram.LaidOut) :
    after.ram.LaidOut :=
  hb.of_eq h.symbols h.length

variable {mote : Mote} {name name' : String} {symbol : Symbol} {width : Width} {v : Value}
  (mode : AccessMode)

theorem Same.symbol?_eq {before after : Mote} (h : Same before after) (name : String) :
    after.ram.symbol? name = before.ram.symbol? name := by
  rw [Ram.symbol?, Ram.symbol?, h.symbols]

/-- A write stores the value in the variable of its name and width, or else changes nothing. -/
theorem node_write_cases (mote : Mote) (name : String) (v : Value) :
    (∃ symbol, mote.ram.symbol? name = some symbol ∧ symbol.size = v.width.bytes ∧
      (write mode mote name v).node =
        (MemoryImage.store mote symbol.address (v.encode mote.ram.order)).2) ∨
    (∀ symbol, mote.ram.symbol? name = some symbol → symbol.size ≠ v.width.bytes) ∧
      (write mode mote name v).node = mote := by
  rw [node_write]
  cases hr : resolve mote name v.width with
  | error cause =>
    refine .inr ⟨fun symbol hs hw => ?_, by rw [tryWrite_of_unresolved hr]⟩
    cases hr.symm.trans (resolve_of_size_eq hs hw)
  | ok symbol =>
    obtain ⟨hs, hw⟩ := resolve_eq_ok_iff.mp hr
    exact .inl ⟨symbol, hs, hw, (tryWrite_of_resolved hr mode).2⟩

theorem same_write (mote : Mote) (name : String) (v : Value) :
    Same mote (write mode mote name v).node := by
  rcases node_write_cases mode mote name v with ⟨symbol, -, -, heq⟩ | ⟨-, heq⟩
  · rw [heq]
    exact same_store mote _ _
  · rw [heq]
    exact .refl mote

theorem same_assign (bindings : List Binding) (mote : Mote) :
    Same mote (assign mode bindings mote) := by
  induction bindings generalizing mote with
  | nil => exact .refl mote
  | cons b rest ih => exact (same_write mode mote b.name b.value).trans (ih _)

theorem Made.write (h : mote.Made) (name : String) (v : Value) :
    (write mode mote name v).node.Made := by
  rcases node_write_cases mode mote name v with ⟨symbol, -, -, heq⟩ | ⟨-, heq⟩
  · rw [heq]
    exact h.store _ _
  · rwa [heq]

theorem Made.assign (h : mote.Made) (bindings : List Binding) :
    (assign mode bindings mote).Made := by
  induction bindings generalizing mote with
  | nil => exact h
  | cons b rest ih => exact ih (h.write mode b.name b.value)

theorem read_eq_readAt (hs : mote.ram.symbol? name = some symbol) (hw : symbol.size = width.bytes) :
    Memory.read mote name width = readAt mote symbol width := by
  rw [Memory.read, resolve_of_size_eq hs hw]

theorem readAt_of_load {bs : List UInt8} (hload : mote.ram.load symbol.address width.bytes = .ok bs)
    (hv : Value.decode? mote.ram.order width bs = some v) : readAt mote symbol width = .ok v := by
  have hload' : MemoryImage.load mote symbol.address width.bytes = .ok bs := hload
  have hv' : Value.decode? (MemoryImage.byteOrder mote) width bs = some v := hv
  rw [readAt, hload']
  dsimp only
  rw [hv']

theorem Same.resolve_eq {before after : Mote} (h : Same before after) (name : String)
    (width : Width) : resolve after name width = resolve before name width := by
  have hsymbol : MemoryImage.symbol? after name = MemoryImage.symbol? before name :=
    h.symbol?_eq name
  rw [resolve, resolve, hsymbol]

/-- What a mote reads as depends on the bytes of the variable only. -/
theorem Same.read_eq {before after : Mote} (h : Same before after)
    (hload : ∀ symbol, before.ram.symbol? name = some symbol → symbol.size = width.bytes →
      after.ram.load symbol.address width.bytes = before.ram.load symbol.address width.bytes) :
    Memory.read after name width = Memory.read before name width := by
  rw [Memory.read, Memory.read, h.resolve_eq]
  cases hr : resolve before name width with
  | error e => rfl
  | ok symbol =>
    obtain ⟨hs, hw⟩ := resolve_eq_ok_iff.mp hr
    have hbytes : MemoryImage.load after symbol.address width.bytes =
        MemoryImage.load before symbol.address width.bytes := hload symbol hs hw
    have horder : MemoryImage.byteOrder after = MemoryImage.byteOrder before := h.order
    dsimp only
    rw [readAt, readAt, hbytes, horder]

/-- A declared variable can be read. -/
theorem exists_read (h : mote.ram.LaidOut) (hs : mote.ram.symbol? name = some symbol)
    (hw : symbol.size = width.bytes) : ∃ v, Memory.read mote name width = .ok v := by
  have hoffset := h.offset?_eq hs
  rw [hw] at hoffset
  cases hload : mote.ram.load symbol.address width.bytes with
  | error e => simp [Ram.load, hoffset] at hload
  | ok bs =>
    have hdecoded : (Value.decode? mote.ram.order width bs).isSome :=
      Value.decode?_isSome (Ram.length_load hload)
    obtain ⟨v, hv⟩ := Option.isSome_iff_exists.mp hdecoded
    exact ⟨v, (read_eq_readAt hs hw).trans (readAt_of_load hload hv)⟩

theorem read_write_self (h : mote.ram.LaidOut) (hs : mote.ram.symbol? name = some symbol)
    (hw : symbol.size = v.width.bytes) :
    Memory.read (write mode mote name v).node name v.width = .ok v := by
  rcases node_write_cases mode mote name v with ⟨symbol', hs', -, heq⟩ | ⟨hnone, -⟩
  · obtain rfl := Option.some.inj (hs.symm.trans hs')
    have hsame := same_store mote symbol.address (v.encode mote.ram.order)
    have hoffset := h.offset?_eq hs
    rw [hw, ← Value.length_encode mote.ram.order v] at hoffset
    have hload := (Ram.load_store_self hoffset).2
    rw [Value.length_encode] at hload
    rw [heq, read_eq_readAt ((hsame.symbol?_eq name).trans hs) hw]
    apply readAt_of_load hload
    rw [hsame.order]
    exact Value.decode?_encode mote.ram.order v
  · exact absurd hw (hnone symbol hs)

/-- A write is seen in no variable but the one of its name and width. -/
theorem read_write_other (h : mote.ram.LaidOut)
    (hother : name = name' → v.width = width → ∀ symbol, mote.ram.symbol? name = some symbol →
      symbol.size ≠ width.bytes) :
    Memory.read (write mode mote name v).node name' width = Memory.read mote name' width := by
  rcases node_write_cases mode mote name v with ⟨symbol, hs, hw, heq⟩ | ⟨-, heq⟩
  · rw [heq]
    apply (same_store mote symbol.address (v.encode mote.ram.order)).read_eq
    intro symbol' hs' hw'
    apply Ram.load_store_apart
    rw [Value.length_encode, ← hw, ← hw']
    by_cases hname : name = name'
    · subst hname
      obtain rfl := Option.some.inj (hs.symm.trans hs')
      exact absurd hw' (hother rfl (Width.bytes_injective (hw.symm.trans hw')) symbol hs)
    · exact h.symbols_apart hs hs' hname
  · rw [heq]

/-- A variable that is never bound with its own width keeps its value. -/
theorem read_assign_other (h : mote.ram.LaidOut) {bindings : List Binding}
    (hother : ∀ b ∈ bindings, b.name = name → b.value.width = width → ∀ symbol,
      mote.ram.symbol? name = some symbol → symbol.size ≠ width.bytes) :
    Memory.read (assign mode bindings mote) name width = Memory.read mote name width := by
  induction bindings using List.reverseRecOn with
  | nil => rfl
  | append_singleton front last ih =>
    have hsame := same_assign mode front mote
    rw [assign_append, ← ih fun b hb => hother b (List.mem_append_left _ hb)]
    apply read_write_other mode (hsame.laidOut h)
    intro hname hwidth symbol hs
    subst hname
    exact hother last (by simp) rfl hwidth symbol ((hsame.symbol?_eq _).symm.trans hs)

/-- A variable has the value of the last binding that has its width. -/
theorem read_assign_last (h : mote.ram.LaidOut) (front : List Binding) {b : Binding}
    {back : List Binding} (hs : mote.ram.symbol? b.name = some symbol)
    (hw : symbol.size = b.value.width.bytes)
    (hlast : ∀ b' ∈ back, b'.name = b.name → b'.value.width ≠ b.value.width) :
    Memory.read (assign mode (front ++ b :: back) mote) b.name b.value.width = .ok b.value := by
  have hsame := same_assign mode front mote
  have hwritten := read_write_self mode (hsame.laidOut h) ((hsame.symbol?_eq b.name).trans hs) hw
  have hafter := (hsame.trans (same_write mode _ b.name b.value)).laidOut h
  rw [assign_append, assign_cons, ← hwritten]
  exact read_assign_other mode hafter fun b' hb hname hwidth => absurd hwidth (hlast b' hb hname)

theorem read_assign (h : mote.ram.LaidOut) (hs : mote.ram.symbol? name = some symbol)
    (hw : symbol.size = width.bytes) {bindings : List Binding}
    (hwidth : ∀ b ∈ bindings, b.value.width = width) {b : Binding}
    (hb : (bindings.filter (·.name = name)).getLast? = some b) :
    Memory.read (assign mode bindings mote) name width = .ok b.value := by
  obtain ⟨before, hbefore⟩ := List.getLast?_eq_some_iff.mp hb
  obtain ⟨front, rest, rfl, -, hrest⟩ := List.filter_eq_append_iff.mp hbefore
  obtain ⟨between, back, rfl, -, hname, hback⟩ := List.filter_eq_cons_iff.mp hrest
  obtain rfl : b.name = name := of_decide_eq_true hname
  obtain rfl : b.value.width = width := hwidth b (by simp)
  rw [← List.append_assoc]
  refine read_assign_last mode h (front ++ between) hs hw fun b' hb' hsame => ?_
  exact absurd (decide_eq_true hsame) (List.filter_eq_nil_iff.mp hback b' hb')

end Mote

end MoteBench
