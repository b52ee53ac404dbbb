import Mathlib.Data.Finmap
import MoteBench.Proofs.Memory.Assignment
import MoteBench.Proofs.Memory.Declarations
import MoteBench.Proofs.Memory.Guard

/-!
A mote seen as nothing but its variables and their values. Whatever is declared, written and read,
and in whatever order, a mote answers as a finite map from names to values does.
-/
namespace MoteBench

open Memory

/-- The value of a variable that was never written. -/
def Memory.Width.blank : Width → Value
  | .bool8 => .bool false
  | .int16 => .int16 0

@[simp] theorem Memory.Width.width_blank (w : Width) : w.blank.width = w := by
  cases w <;> rfl

theorem Memory.Width.decode?_blank (order : ByteOrder) (w : Width) :
    Value.decode? order w (.replicate w.bytes 0) = some w.blank := by
  cases w <;> cases order <;> rfl

/-- The values of the declared variables. A value also says how wide its variable is. -/
abbrev Variables := Finmap fun _ : String => Value

namespace Variables

/-- A name that is already declared keeps its width and value. -/
def declare (vars : Variables) (name : String) (width : Width) : Variables :=
  match vars.lookup name with
  | some _ => vars
  | none => vars.insert name width.blank

/-- The width that a variable has once it is declared, perhaps not for the first time. -/
def width (vars : Variables) (name : String) (declared : Width) : Width :=
  match vars.lookup name with
  | some v => v.width
  | none => declared

def read (vars : Variables) (name : String) (width : Width) : Except AccessError Value :=
  match vars.lookup name with
  | none => .error (.variableNotFound name)
  | some v =>
    if v.width = width then .ok v else .error (.widthMismatch name width.bytes v.width.bytes)

theorem read_of_lookup {vars : Variables} {name : String} {v : Value}
    (h : vars.lookup name = some v) : vars.read name v.width = .ok v := by
  rw [read, h]
  exact if_pos rfl

theorem read_of_width_ne {vars : Variables} {name : String} {v : Value} {width : Width}
    (h : vars.lookup name = some v) (hw : v.width ≠ width) :
    vars.read name width = .error (.widthMismatch name width.bytes v.width.bytes) := by
  rw [read, h]
  exact if_neg hw

theorem read_of_none {vars : Variables} {name : String} (h : vars.lookup name = none)
    (width : Width) : vars.read name width = .error (.variableNotFound name) := by
  rw [read, h]

/-- Gives a variable a value of its width, and answers with the value before. -/
def write (vars : Variables) (name : String) (v : Value) : Except AccessError Value × Variables :=
  match vars.read name v.width with
  | .error cause => (.error cause, vars)
  | .ok old => (.ok old, vars.insert name v)

end Variables

namespace Mote

/-- What can be done with the variables of a mote. -/
inductive Request where
  | define (name : String) (width : Width)
  | withVariable (name : String) (width : Width)
  | tryWrite (mode : AccessMode) (name : String) (v : Value)
  | write (mode : AccessMode) (name : String) (v : Value)
  | read (name : String) (width : Width)

/-- What one gets to know of the variables. -/
inductive Answer where
  | done
  | declared (size : Nat)
  | written (previous : Except AccessError (Option Value))
  | succeeded (yes : Bool)
  | value (v : Except AccessError Value)

def serve (mote : Mote) : Request → Answer × Mote
  | .define name width =>
    (.declared (mote.define name width).1.size, (mote.define name width).2)
  | .withVariable name width => (.done, mote.withVariable name width)
  | .tryWrite mode name v =>
    let a := tryWrite mode mote name v
    (.written (a.outcome.map (·.previous)), a.node)
  | .write mode name v =>
    let a := Memory.write mode mote name v
    (.succeeded a.succeeded, a.node)
  | .read name width => (.value (Memory.read mote name width), mote)

def serveAll (mote : Mote) : List Request → List Answer × Mote
  | [] => ([], mote)
  | q :: requests =>
    let (answer, mote) := mote.serve q
    let (answers, mote) := mote.serveAll requests
    (answer :: answers, mote)

end Mote

namespace Variables

open Mote

/-- What a write tells of the value that it replaced. -/
def reported (old : Value) : AccessMode → Option Value
  | .quiet => none
  | .audited => some old

def serve (vars : Variables) : Request → Answer × Variables
  | .define name width => (.declared (vars.width name width).bytes, vars.declare name width)
  | .withVariable name width => (.done, vars.declare name width)
  | .tryWrite mode name v =>
    (.written ((vars.write name v).1.map (reported · mode)), (vars.write name v).2)
  | .write _ name v => (.succeeded (vars.write name v).1.toBool, (vars.write name v).2)
  | .read name width => (.value (vars.read name width), vars)

def serveAll (vars : Variables) : List Request → List Answer × Variables
  | [] => ([], vars)
  | q :: requests =>
    let (answer, vars) := vars.serve q
    let (answers, vars) := vars.serveAll requests
    (answer :: answers, vars)

end Variables

namespace Memory.Ram

variable {ram ram' : Ram} {name : String} {width : Width}

theorem load_of_prefix (h : ram.bytes <+: ram'.bytes) {address count start : Nat}
    (hstart : ram.offset? address count = some start) :
    ram'.load address count = ram.load address count := by
  obtain ⟨back, hback⟩ := h
  obtain ⟨rfl, hfits⟩ := offset?_eq_some_iff.mp hstart
  have hstart' : ram'.offset? (base + start) count = some start := by
    rw [offset?_eq_some_iff, ← hback, List.length_append]
    omega
  rw [load, load, hstart, hstart', ← hback]
  dsimp only
  rw [List.drop_append_of_le_length (by omega), List.take_append_of_le_length]
  rw [List.length_drop]
  omega

theorem order_define (ram : Ram) (name : String) (width : Width) :
    (ram.define name width).2.order = ram.order := by
  cases hs : ram.symbol? name with
  | some symbol => rw [define_of_some hs]
  | none => rw [define_of_none hs]

/-- A new variable is blank. -/
theorem load_define (h : ram.symbol? name = none) (width : Width) :
    (ram.define name width).2.load (ram.define name width).1.address width.bytes =
      .ok (.replicate width.bytes 0) := by
  have hstart : (ram.define name width).2.offset? (ram.define name width).1.address width.bytes =
      some (ram.bytes.length + ram.padding width.bytes) := by
    rw [offset?_eq_some_iff, define_of_none h]
    simp [Nat.add_assoc]
  have hdrop : ram.bytes.drop (ram.bytes.length + ram.padding width.bytes) = [] :=
    List.drop_eq_nil_of_le (Nat.le_add_right _ _)
  rw [load, hstart, define_of_none h]
  simp [List.drop_append, hdrop]

end Memory.Ram

namespace Mote

variable {mote : Mote} {name name' : String} {width width' : Width} {v : Value}

theorem exists_symbol_of_read (h : Memory.read mote name width = .ok v) :
    ∃ symbol, mote.ram.symbol? name = some symbol := by
  cases hr : resolve mote name width with
  | error cause =>
    rw [Memory.read, hr] at h
    cases h
  | ok symbol => exact ⟨symbol, (resolve_eq_ok_iff.mp hr).1⟩

/-- What can be read does not change with a declaration. -/
theorem read_define_of_some {symbol : Symbol} (h : mote.ram.LaidOut)
    (hs : mote.ram.symbol? name' = some symbol) (name : String) (width width' : Width) :
    Memory.read (mote.define name width).2 name' width' = Memory.read mote name' width' := by
  have hs' : (mote.define name width).2.ram.symbol? name' = some symbol :=
    Ram.symbol?_define_of_some hs name width
  by_cases hw : symbol.size = width'.bytes
  · have hoffset := h.offset?_eq hs
    rw [hw] at hoffset
    have hload : MemoryImage.load (mote.define name width).2 symbol.address width'.bytes =
        MemoryImage.load mote symbol.address width'.bytes :=
      Ram.load_of_prefix (Ram.bytes_prefix_define mote.ram name width) hoffset
    have horder : MemoryImage.byteOrder (mote.define name width).2 = MemoryImage.byteOrder mote :=
      Ram.order_define mote.ram name width
    rw [read_eq_readAt hs hw, read_eq_readAt hs' hw, readAt, readAt, hload, horder]
  · have hbefore : Memory.read mote name' width' =
        .error (.widthMismatch name' width'.bytes symbol.size) := read_of_size_ne hs hw
    exact (read_of_size_ne hs' hw).trans hbefore.symm

theorem read_define_of_none (h : mote.ram.symbol? name = none) (width : Width) :
    Memory.read (mote.define name width).2 name width = .ok width.blank := by
  have hs : (mote.define name width).2.ram.symbol? name = some (mote.ram.define name width).1 :=
    Ram.symbol?_define_self mote.ram name width
  have hw : (mote.ram.define name width).1.size = width.bytes := by rw [Ram.define_of_none h]
  rw [read_eq_readAt hs hw]
  exact readAt_of_load (Ram.load_define h width) (Width.decode?_blank _ width)

/-- The mote has the variables `vars` and no others. -/
structure Represents (mote : Mote) (vars : Variables) : Prop where
  laidOut : mote.ram.LaidOut
  sizes : ∀ name, (mote.ram.symbol? name).map (·.size) = (vars.lookup name).map (·.width.bytes)
  values : ∀ name v, vars.lookup name = some v → Memory.read mote name v.width = .ok v

namespace Represents

variable {vars : Variables}

theorem symbol?_eq_none (h : mote.Represents vars) (hv : vars.lookup name = none) :
    mote.ram.symbol? name = none := by
  simpa [hv] using h.sizes name

theorem exists_symbol (h : mote.Represents vars) (hv : vars.lookup name = some v) :
    ∃ symbol, mote.ram.symbol? name = some symbol ∧ symbol.size = v.width.bytes := by
  simpa [hv] using h.sizes name

/-- A mote is read as its variables are. -/
theorem read_eq (h : mote.Represents vars) (name : String) (width : Width) :
    Memory.read mote name width = vars.read name width := by
  cases hv : vars.lookup name with
  | none => rw [Variables.read_of_none hv, Memory.read_of_none (h.symbol?_eq_none hv)]
  | some v =>
    obtain ⟨symbol, hs, hsize⟩ := h.exists_symbol hv
    by_cases hw : v.width = width
    · subst hw
      rw [h.values name v hv, Variables.read_of_lookup hv]
    · have hne : symbol.size ≠ width.bytes :=
        fun heq => hw (Width.bytes_injective (hsize.symm.trans heq))
      rw [Memory.read_of_size_ne hs hne, hsize, Variables.read_of_width_ne hv hw]

theorem size_define (h : mote.Represents vars) (name : String) (width : Width) :
    (mote.define name width).1.size = (vars.width name width).bytes := by
  change (mote.ram.define name width).1.size = _
  cases hv : vars.lookup name with
  | some v =>
    obtain ⟨symbol, hs, hsize⟩ := h.exists_symbol hv
    rw [Ram.define_of_some hs, Variables.width, hv]
    exact hsize
  | none => rw [Ram.define_of_none (h.symbol?_eq_none hv), Variables.width, hv]

theorem define (h : mote.Represents vars) (name : String) (width : Width) :
    (mote.define name width).2.Represents (vars.declare name width) := by
  cases hv : vars.lookup name with
  | some v =>
    obtain ⟨symbol, hs, -⟩ := h.exists_symbol hv
    have hsame : (mote.define name width).2 = mote := by
      rw [Mote.define, Ram.define_of_some hs]
    have hdeclare : vars.declare name width = vars := by rw [Variables.declare, hv]
    rwa [hsame, hdeclare]
  | none =>
    have hnone := h.symbol?_eq_none hv
    have hdeclare : vars.declare name width = vars.insert name width.blank := by
      rw [Variables.declare, hv]
    rw [hdeclare]
    refine ⟨h.laidOut.define name width, fun name' => ?_, fun name' v hv' => ?_⟩
    · change ((mote.ram.define name width).2.symbol? name').map (·.size) = _
      by_cases hname : name' = name
      · subst hname
        rw [Ram.symbol?_define_self, Ram.define_of_none hnone, Finmap.lookup_insert]
        simp
      · rw [Ram.symbol?_define_other _ hname, Finmap.lookup_insert_of_ne _ hname]
        exact h.sizes name'
    · by_cases hname : name' = name
      · subst hname
        rw [Finmap.lookup_insert] at hv'
        obtain rfl := Option.some.inj hv'
        rw [Width.width_blank]
        exact read_define_of_none hnone width
      · rw [Finmap.lookup_insert_of_ne _ hname] at hv'
        obtain ⟨symbol, hs, -⟩ := h.exists_symbol hv'
        rw [read_define_of_some h.laidOut hs]
        exact h.values name' v hv'

/-- A value that is written is that of its variable, and no other variable is affected. -/
theorem node_tryWrite {symbol : Symbol} (h : mote.Represents vars) (mode : AccessMode)
    (hs : mote.ram.symbol? name = some symbol) (hw : symbol.size = v.width.bytes) :
    (tryWrite mode mote name v).node.Represents (vars.insert name v) := by
  have hsame := same_write mode mote name v
  rw [← node_write]
  refine ⟨hsame.laidOut h.laidOut, fun name' => ?_, fun name' v' hv' => ?_⟩
  · rw [hsame.symbol?_eq]
    by_cases hname : name' = name
    · subst hname
      simp [hs, hw]
    · rw [Finmap.lookup_insert_of_ne _ hname]
      exact h.sizes name'
  · by_cases hname : name' = name
    · subst hname
      rw [Finmap.lookup_insert] at hv'
      obtain rfl := Option.some.inj hv'
      exact read_write_self mode h.laidOut hs hw
    · rw [Finmap.lookup_insert_of_ne _ hname] at hv'
      rw [read_write_other mode h.laidOut fun heq => absurd heq.symm hname]
      exact h.values name' v' hv'

theorem tryWrite (h : mote.Represents vars) (mode : AccessMode) (name : String) (v : Value) :
    (tryWrite mode mote name v).outcome.map (·.previous) =
        (vars.write name v).1.map (Variables.reported · mode) ∧
      (tryWrite mode mote name v).node.Represents (vars.write name v).2 := by
  have hread := h.read_eq name v.width
  cases hr : resolve mote name v.width with
  | error cause =>
    have hvars : vars.read name v.width = .error cause := by rw [← hread, Memory.read, hr]
    rw [tryWrite_of_unresolved hr, Variables.write, hvars]
    exact ⟨rfl, h⟩
  | ok symbol =>
    obtain ⟨hs, hw⟩ := resolve_eq_ok_iff.mp hr
    obtain ⟨old, hold⟩ := exists_read h.laidOut hs hw
    have hvars : vars.read name v.width = .ok old := hread.symm.trans hold
    have hprevious : previous mode mote name v.width = Variables.reported old mode := by
      cases mode with
      | quiet => rfl
      | audited => rw [previous, hold]; rfl
    have hoffset := h.laidOut.offset?_eq hs
    rw [hw, ← Value.length_encode mote.ram.order v] at hoffset
    have hstore : (MemoryImage.store mote symbol.address
        (v.encode (MemoryImage.byteOrder mote))).1 = .ok () := (Ram.load_store_self hoffset).1
    refine ⟨?_, ?_⟩
    · rw [(tryWrite_of_resolved hr mode).1, hstore, Variables.write, hvars]
      exact congrArg Except.ok hprevious
    · rw [Variables.write, hvars]
      exact h.node_tryWrite mode hs hw

theorem succeeded_write (h : mote.Represents vars) (mode : AccessMode) (name : String) (v : Value) :
    (Memory.write mode mote name v).succeeded = (vars.write name v).1.toBool := by
  have houtcome := (h.tryWrite mode name v).1
  rw [Attempt.succeeded, outcome_write]
  cases ht : (Memory.tryWrite mode mote name v).outcome <;> cases hv : (vars.write name v).1 <;>
    rw [ht, hv] at houtcome <;> first | rfl | cases houtcome

/-- A mote and its variables answer alike, and stay together. -/
theorem serve (h : mote.Represents vars) (q : Request) :
    (mote.serve q).1 = (vars.serve q).1 ∧ (mote.serve q).2.Represents (vars.serve q).2 := by
  cases q with
  | define name width =>
    exact ⟨congrArg Answer.declared (h.size_define name width), h.define name width⟩
  | withVariable name width => exact ⟨rfl, h.define name width⟩
  | tryWrite mode name v =>
    obtain ⟨houtcome, hnode⟩ := h.tryWrite mode name v
    exact ⟨congrArg Answer.written houtcome, hnode⟩
  | write mode name v =>
    have hnode := (h.tryWrite mode name v).2
    rw [← node_write] at hnode
    exact ⟨congrArg Answer.succeeded (h.succeeded_write mode name v), hnode⟩
  | read name width => exact ⟨congrArg Answer.value (h.read_eq name width), h⟩

theorem serveAll (h : mote.Represents vars) (requests : List Request) :
    (mote.serveAll requests).1 = (vars.serveAll requests).1 ∧
      (mote.serveAll requests).2.Represents (vars.serveAll requests).2 := by
  induction requests generalizing mote vars with
  | nil => exact ⟨rfl, h⟩
  | cons q requests ih =>
    obtain ⟨hanswer, hafter⟩ := h.serve q
    obtain ⟨hanswers, hlast⟩ := ih hafter
    exact ⟨congrArg₂ List.cons hanswer hanswers, hlast⟩

theorem read_ne_outOfBounds (h : mote.Represents vars) (name : String) (width : Width)
    (address count : Nat) : Memory.read mote name width ≠ .error (.outOfBounds address count) := by
  rw [h.read_eq]
  cases hv : vars.lookup name with
  | none => simp [Variables.read_of_none hv]
  | some v =>
    by_cases hw : v.width = width
    · subst hw
      simp [Variables.read_of_lookup hv]
    · simp [Variables.read_of_width_ne hv hw]

/-- A write fails for the reason for which its variable cannot be read. -/
theorem read_of_tryWrite_error (h : mote.Represents vars) {mode : AccessMode} {cause : AccessError}
    (hfailed : (Memory.tryWrite mode mote name v).outcome = .error cause) :
    Memory.read mote name v.width = .error cause := by
  have houtcome := (h.tryWrite mode name v).1
  rw [hfailed, Variables.write] at houtcome
  rw [h.read_eq]
  cases hv : vars.read name v.width with
  | error cause' =>
    rw [hv] at houtcome
    exact congrArg Except.error (Except.error.inj houtcome).symm
  | ok old =>
    rw [hv] at houtcome
    cases houtcome

end Represents

theorem represents_empty (id : MoteId) (order : ByteOrder) :
    (({ id } : Mote).withByteOrder order).Represents ∅ :=
  ⟨Ram.laidOut_empty order, fun _ => rfl, by simp⟩

/-- How `mote` serves requests, next to the variables `vars` that are asked for the same. -/
structure ServesAs (mote : Mote) (vars : Variables) (requests : List Request) : Prop where
  alike : (mote.serveAll requests).1 = (vars.serveAll requests).1
  /-- The mote declares what its variables do, and holds their values. -/
  read : ∀ name width, Memory.read (mote.serveAll requests).2 name width =
    (vars.serveAll requests).2.read name width
  /-- No access by name goes beyond the memory. -/
  inside : ∀ address count,
    (∀ name width, Memory.read (mote.serveAll requests).2 name width ≠
      .error (.outOfBounds address count)) ∧
    ∀ mode name v, (tryWrite mode (mote.serveAll requests).2 name v).outcome ≠
      .error (.outOfBounds address count)
  refused : ∀ mode name v cause,
    (tryWrite mode (mote.serveAll requests).2 name v).outcome = .error cause →
      (tryWrite mode (mote.serveAll requests).2 name v).node = (mote.serveAll requests).2 ∧
        (Memory.write mode (mote.serveAll requests).2 name v).node = (mote.serveAll requests).2
  /-- A declaration does not disturb the value of another variable. -/
  undisturbed : ∀ name width name' width' v,
    Memory.read (mote.serveAll requests).2 name' width' = .ok v →
      Memory.read ((mote.serveAll requests).2.define name width).2 name' width' = .ok v

/-- A new mote of either byte order serves all requests as the variables do that it is given. -/
theorem serves_as_variables (id : MoteId) (order : ByteOrder) (requests : List Request) :
    (({ id } : Mote).withByteOrder order).ServesAs ∅ requests := by
  obtain ⟨halike, hafter⟩ := (represents_empty id order).serveAll requests
  constructor
  case alike => exact halike
  case read => exact hafter.read_eq
  case inside =>
    refine fun address count => ⟨fun name width => ?_, fun mode name v hfailed => ?_⟩
    · exact hafter.read_ne_outOfBounds name width address count
    · exact hafter.read_ne_outOfBounds name v.width address count
        (hafter.read_of_tryWrite_error hfailed)
  case refused =>
    intro mode name v cause hfailed
    have hnode := storage.node_tryWrite_of_error hfailed
    exact ⟨hnode, (node_write mode _ name v).trans hnode⟩
  case undisturbed =>
    intro name width name' width' v hread
    obtain ⟨symbol, hs⟩ := exists_symbol_of_read hread
    rw [read_define_of_some hafter.laidOut hs, hread]

end Mote

end MoteBench
