import Mathlib.Data.List.Basic
import MoteBench.Proofs.Memory.Assignment
import MoteBench.Proofs.Run.Audit

/-!
A broadcast treats every mote as if there were no other. What a mote refuses it refuses by its own
declarations, whatever became of the bindings before and of the other motes, so that the reports of a
broadcast can be told from the declarations. Audits alone depend on what was written before.
-/
namespace MoteBench

open Memory

namespace Mote

/-- Why a mote does not take a binding: it lacks the variable, or declares it with another width. -/
def refusal? (mote : Mote) (b : Binding) : Option AccessError :=
  match mote.ram.symbol? b.name with
  | none => some (.variableNotFound b.name)
  | some symbol =>
    if symbol.size = b.value.width.bytes then none
    else some (.widthMismatch b.name b.value.width.bytes symbol.size)

/-- What is said of the value that a binding is about to replace. -/
def audit? (mote : Mote) (b : Binding) : Option Entry := do
  let symbol ← mote.ram.symbol? b.name
  let old ← (Memory.read mote b.name b.value.width).toOption
  some (.replacing mote.id b.name symbol old b.value)

/-- What is reported when a mote is given a binding. -/
def report? (mode : AccessMode) (b : Binding) (mote : Mote) : Option Entry :=
  match mote.refusal? b, mode with
  | some cause, _ => some (.writeFailed mote.id cause)
  | none, .quiet => none
  | none, .audited => mote.audit? b

variable {mote : Mote} {b : Binding} {mode : AccessMode} {cause : AccessError}

theorem refusal?_eq_none_iff : mote.refusal? b = none ↔
    ∃ symbol, mote.ram.symbol? b.name = some symbol ∧ symbol.size = b.value.width.bytes := by
  unfold refusal?
  cases mote.ram.symbol? b.name with
  | none => simp
  | some symbol =>
    dsimp only
    split <;> simp_all

theorem Same.refusal?_eq {before after : Mote} (h : Same before after) (b : Binding) :
    after.refusal? b = before.refusal? b := by
  rw [refusal?, refusal?, h.symbol?_eq]

theorem resolve_of_refusal (h : mote.refusal? b = some cause) :
    resolve mote b.name b.value.width = .error cause := by
  unfold refusal? at h
  split at h
  · rename_i hs
    obtain rfl := Option.some.inj h
    have hsymbol : MemoryImage.symbol? mote b.name = none := hs
    exact resolve_of_none hsymbol _
  · rename_i symbol hs
    split at h
    · cases h
    · rename_i hw
      obtain rfl := Option.some.inj h
      have hsymbol : MemoryImage.symbol? mote b.name = some symbol := hs
      exact resolve_of_size_ne hsymbol hw

/-- A refused binding does nothing but be reported. -/
theorem write_of_refusal (h : mote.refusal? b = some cause) (mode : AccessMode) :
    Memory.write mode mote b.name b.value = ⟨.error cause, mote, [.writeFailed mote.id cause]⟩ := by
  rw [Memory.write, tryWrite_of_unresolved (resolve_of_refusal h)]
  rfl

/-- An audit of a binding that is not refused tells the value that is there. -/
theorem audit?_of_taken (hlaid : mote.ram.LaidOut) (h : mote.refusal? b = none) :
    ∃ symbol old, mote.ram.symbol? b.name = some symbol ∧
      Memory.read mote b.name b.value.width = .ok old ∧
      mote.audit? b = some (.replacing mote.id b.name symbol old b.value) := by
  obtain ⟨symbol, hs, hw⟩ := refusal?_eq_none_iff.mp h
  obtain ⟨old, hold⟩ := exists_read hlaid hs hw
  refine ⟨symbol, old, hs, hold, ?_⟩
  simp [audit?, hs, hold, Except.toOption]

/-- What is not refused fits into the variable, and so it can be stored. -/
theorem store_of_taken (hlaid : mote.ram.LaidOut) (h : mote.refusal? b = none) :
    ∃ symbol after, resolve mote b.name b.value.width = .ok symbol ∧
      MemoryImage.store mote symbol.address (b.value.encode (MemoryImage.byteOrder mote)) =
        (.ok (), after) := by
  obtain ⟨symbol, hs, hw⟩ := refusal?_eq_none_iff.mp h
  have hsymbol : MemoryImage.symbol? mote b.name = some symbol := hs
  have hoffset := hlaid.offset?_eq hs
  rw [hw, ← Value.length_encode mote.ram.order] at hoffset
  have hstored : (MemoryImage.store mote symbol.address (b.value.encode mote.ram.order)).1 = .ok () :=
    (Ram.load_store_self hoffset).1
  exact ⟨symbol, _, resolve_of_size_eq hsymbol hw, Prod.ext hstored rfl⟩

/-- A binding that is not refused is stored. -/
theorem write_of_taken (hlaid : mote.ram.LaidOut) (h : mote.refusal? b = none) (mode : AccessMode) :
    (Memory.write mode mote b.name b.value).succeeded ∧
      (Memory.write mode mote b.name b.value).trace = (mote.report? mode b).toList := by
  obtain ⟨symbol, after, hresolve, hstore⟩ := store_of_taken hlaid h
  cases mode with
  | quiet =>
    have hreport : mote.report? .quiet b = none := by simp [report?, h]
    rw [Memory.write, tryWrite, hresolve, hreport]
    dsimp only
    rw [hstore]
    exact ⟨rfl, rfl⟩
  | audited =>
    obtain ⟨hs, hw⟩ := resolve_eq_ok_iff.mp hresolve
    obtain ⟨found, old, hfound, hold, haudit⟩ := audit?_of_taken hlaid h
    obtain rfl := Option.some.inj (hfound.symm.trans hs)
    have hread := (read_eq_readAt hfound hw).symm.trans hold
    have hreport : mote.report? .audited b =
        some (.replacing mote.id b.name found old b.value) := by simp [report?, h, haudit]
    rw [Memory.write, tryWrite, hresolve, hreport]
    dsimp only
    rw [hstore, audit, hread]
    exact ⟨rfl, rfl⟩

theorem trace_write (hlaid : mote.ram.LaidOut) (mode : AccessMode) (b : Binding) :
    (Memory.write mode mote b.name b.value).trace = (mote.report? mode b).toList := by
  cases h : mote.refusal? b with
  | some cause => simp [write_of_refusal h, report?, h]
  | none => exact (write_of_taken hlaid h mode).2

/-- A write fails if it is refused, and not otherwise. -/
theorem not_succeeded_write (hlaid : mote.ram.LaidOut) (mode : AccessMode) (b : Binding) :
    (!(Memory.write mode mote b.name b.value).succeeded) = (mote.refusal? b).isSome := by
  cases h : mote.refusal? b with
  | some cause => rw [write_of_refusal h]; rfl
  | none => rw [(write_of_taken hlaid h mode).1]; rfl

theorem outcome_write_eq_error_iff (hlaid : mote.ram.LaidOut) :
    (Memory.write mode mote b.name b.value).outcome = .error cause ↔ mote.refusal? b = some cause := by
  constructor
  · intro hfailed
    cases h : mote.refusal? b with
    | some cause' =>
      rw [write_of_refusal h] at hfailed
      exact congrArg some (Except.error.inj hfailed)
    | none =>
      have hsucceeded := (write_of_taken hlaid h mode).1
      rw [Attempt.succeeded, hfailed] at hsucceeded
      cases hsucceeded
  · exact fun h => by rw [write_of_refusal h]

/-- The report of a refusal. -/
def failure? (b : Binding) (mote : Mote) : Option Entry :=
  (mote.refusal? b).map (.writeFailed mote.id)

theorem report?_quiet (b : Binding) : report? .quiet b = failure? b := by
  funext mote
  unfold report? failure?
  cases mote.refusal? b <;> rfl

/-- Refused bindings make no difference. -/
theorem assign_filter_refusal (mode : AccessMode) (bindings : List Binding) (mote : Mote) :
    assign mode (bindings.filter fun b => (mote.refusal? b).isNone) mote =
      assign mode bindings mote := by
  induction bindings using List.reverseRecOn with
  | nil => rfl
  | append_singleton front last ih =>
    rw [List.filter_append, assign_append, assign_append, ih]
    cases h : mote.refusal? last with
    | none => simp [h]
    | some cause =>
      have hsame := same_assign mode front mote
      have hlast := write_of_refusal ((hsame.refusal?_eq last).trans h) mode
      have hnode : assign mode [last] (assign mode front mote) = assign mode front mote :=
        congrArg Attempt.node hlast
      rw [hnode, List.filter_singleton, h]
      rfl

end Mote

/-! ### Reports -/

/-- The last report of a binding that is broadcast says how many motes refuse it. -/
def Memory.Binding.summary (motes : List Mote) (b : Binding) : Entry :=
  .broadcast b motes.length (motes.countP fun mote => (mote.refusal? b).isSome)

/-- What is reported of a binding that is broadcast, audits apart. -/
def Memory.Binding.reported (motes : List Mote) (b : Binding) : Trace :=
  motes.filterMap (Mote.failure? b) ++ [b.summary motes]

theorem trace_broadcast {motes : List Mote} (hlaid : ∀ mote ∈ motes, mote.ram.LaidOut)
    (mode : AccessMode) (b : Binding) :
    (broadcast mode b motes).2 = motes.filterMap (Mote.report? mode b) ++ [b.summary motes] := by
  have hlines : (motes.map (write mode · b.name b.value)).flatMap (·.trace) =
      motes.filterMap (Mote.report? mode b) := by
    rw [List.flatMap_map, List.filterMap_eq_flatMap_toList]
    exact List.flatMap_congr fun mote hm => Mote.trace_write (hlaid mote hm) mode b
  have hfailed : (motes.map (write mode · b.name b.value)).countP (!·.succeeded) =
      motes.countP fun mote => (mote.refusal? b).isSome := by
    rw [List.countP_map]
    apply List.countP_congr
    intro mote hm
    simp [Mote.not_succeeded_write (hlaid mote hm) mode b]
  simp only [broadcast, hlines, hfailed, Binding.summary]

/-- A further binding is reported by the motes as the bindings before it have left them. -/
theorem trace_broadcastAll_append {motes : List Mote} (hlaid : ∀ mote ∈ motes, mote.ram.LaidOut)
    (mode : AccessMode) (front : List Binding) (b : Binding) :
    (broadcastAll mode (front ++ [b]) motes).2 = (broadcastAll mode front motes).2 ++
      (motes.filterMap (fun mote => (assign mode front mote).report? mode b) ++
        [b.summary motes]) := by
  have hafter : ∀ mote ∈ motes.map (assign mode front), mote.ram.LaidOut := by
    simp only [List.mem_map, forall_exists_index, and_imp, forall_apply_eq_imp_iff₂]
    exact fun mote hm => (Mote.same_assign mode front mote).laidOut (hlaid mote hm)
  have hsummary : b.summary (motes.map (assign mode front)) = b.summary motes := by
    simp only [Binding.summary, List.length_map, List.countP_map, Function.comp_def,
      (Mote.same_assign mode front _).refusal?_eq]
  simp only [broadcastAll_append, nodes_broadcastAll_eq_map, broadcastAll, List.append_nil]
  rw [trace_broadcast hafter, List.filterMap_map, hsummary]
  rfl

/-- Audits apart, the reports of a broadcast can be told from what the motes declare. -/
theorem trace_broadcastAll_quiet {motes : List Mote} (hlaid : ∀ mote ∈ motes, mote.ram.LaidOut)
    (bindings : List Binding) :
    (broadcastAll .quiet bindings motes).2 = bindings.flatMap (Binding.reported motes) := by
  induction bindings using List.reverseRecOn with
  | nil => rfl
  | append_singleton front b ih =>
    have hfailures : (fun mote => (assign .quiet front mote).report? .quiet b) = Mote.failure? b := by
      funext mote
      have hsame := Mote.same_assign .quiet front mote
      rw [Mote.report?_quiet, Mote.failure?, Mote.failure?, hsame.refusal?_eq, hsame.id]
    rw [trace_broadcastAll_append hlaid, ih, hfailures, List.flatMap_append]
    simp [Binding.reported]

theorem unaudited_reported (bindings : List Binding) (motes : List Mote) :
    unaudited (bindings.flatMap (Binding.reported motes)) =
      bindings.flatMap (Binding.reported motes) := by
  rw [unaudited, List.filter_eq_self]
  intro entry hentry
  obtain ⟨b, -, hentry⟩ := List.mem_flatMap.mp hentry
  rcases List.mem_append.mp hentry with hentry | hentry
  · obtain ⟨mote, -, hfailure⟩ := List.mem_filterMap.mp hentry
    obtain ⟨cause, -, rfl⟩ := Option.map_eq_some_iff.mp hfailure
    rfl
  · obtain rfl := List.mem_singleton.mp hentry
    rfl

/-- Audited, every mote reports. -/
theorem Mote.exists_report? {mote : Mote} (hlaid : mote.ram.LaidOut) (b : Binding) :
    (∃ cause, mote.refusal? b = some cause ∧
      mote.report? .audited b = some (.writeFailed mote.id cause)) ∨
    mote.refusal? b = none ∧ ∃ symbol old, mote.ram.symbol? b.name = some symbol ∧
      Memory.read mote b.name b.value.width = .ok old ∧
        mote.report? .audited b = some (.replacing mote.id b.name symbol old b.value) := by
  cases h : mote.refusal? b with
  | some cause => exact .inl ⟨cause, rfl, by simp [report?, h]⟩
  | none =>
    obtain ⟨symbol, old, hs, hold, haudit⟩ := audit?_of_taken hlaid h
    exact .inr ⟨rfl, symbol, old, hs, hold, by simp [report?, h, haudit]⟩

theorem forall₂_filterMap {α β : Type} {R : α → β → Prop} {f : α → Option β} {l : List α}
    (h : ∀ a ∈ l, ∃ b, f a = some b ∧ R a b) : List.Forall₂ R l (l.filterMap f) := by
  induction l with
  | nil => exact .nil
  | cons a l ih =>
    obtain ⟨⟨b, hb, hr⟩, hrest⟩ := List.forall_mem_cons.mp h
    rw [List.filterMap_cons_some hb]
    exact .cons hr (ih hrest)

/-- What a broadcast to `motes` comes to, mote by mote. -/
structure NodeByNode (mode : AccessMode) (bindings : List Binding) (motes : List Mote) : Prop where
  /-- Each mote is given all bindings, in their order. -/
  nodes : (broadcastAll mode bindings motes).1 = motes.map (assign mode bindings)
  /-- It might as well be alone. -/
  alone : (broadcastAll mode bindings motes).1 =
    motes.flatMap fun mote => (broadcastAll mode bindings [mote]).1
  ids : (broadcastAll mode bindings motes).1.map (·.id) = motes.map (·.id)
  last : ∀ front b back, bindings = front ++ b :: back →
    (∀ b' ∈ back, b'.name = b.name → b'.value.width ≠ b.value.width) →
      ∀ mote ∈ motes, mote.refusal? b = none →
        Memory.read (assign mode bindings mote) b.name b.value.width = .ok b.value
  /-- Whether a binding is written, and why not, does not depend on the bindings before it. -/
  fails : ∀ front b back, bindings = front ++ b :: back → ∀ mote ∈ motes, ∀ cause,
    (write mode (assign mode front mote) b.name b.value).outcome = .error cause ↔
      mote.refusal? b = some cause
  /-- A refused binding leaves every byte as it is: it might as well not be there. -/
  kept : ∀ mote ∈ motes,
    assign mode bindings mote = assign mode (bindings.filter fun b => (mote.refusal? b).isNone) mote
  unaudited : unaudited (broadcastAll mode bindings motes).2 =
    bindings.flatMap (Binding.reported motes)
  quiet : mode = .quiet →
    (broadcastAll mode bindings motes).2 = bindings.flatMap (Binding.reported motes)
  /-- With audits, each mote has one report of each binding. -/
  audited : mode = .audited → ∀ front b back, bindings = front ++ b :: back →
    ∃ reports : Trace, (broadcastAll mode (front ++ [b]) motes).2 =
        (broadcastAll mode front motes).2 ++ (reports ++ [b.summary motes]) ∧
      List.Forall₂ (fun mote entry =>
        (∃ cause, mote.refusal? b = some cause ∧ entry = .writeFailed mote.id cause) ∨
        mote.refusal? b = none ∧ ∃ symbol old, mote.ram.symbol? b.name = some symbol ∧
          Memory.read (assign mode front mote) b.name b.value.width = .ok old ∧
            entry = .replacing mote.id b.name symbol old b.value) motes reports

/-- Motes that declare what they like are broadcast to one by one. -/
theorem broadcastAll_nodeByNode (mode : AccessMode) (bindings : List Binding) {motes : List Mote}
    (hmade : ∀ mote ∈ motes, mote.Made) : NodeByNode mode bindings motes := by
  have hlaid : ∀ mote ∈ motes, mote.ram.LaidOut := fun mote hm => (hmade mote hm).laidOut
  have hquiet := trace_broadcastAll_quiet hlaid bindings
  constructor
  case nodes => exact nodes_broadcastAll_eq_map mode bindings motes
  case alone =>
    simp only [nodes_broadcastAll_eq_map, List.map_cons, List.map_nil]
    exact List.map_eq_flatMap
  case ids => exact ids_broadcastAll mode bindings motes
  case last =>
    rintro front b back rfl hlast mote hm htaken
    obtain ⟨symbol, hs, hw⟩ := Mote.refusal?_eq_none_iff.mp htaken
    exact Mote.read_assign_last mode (hlaid mote hm) front hs hw hlast
  case fails =>
    rintro front b back rfl mote hm cause
    have hsame := Mote.same_assign mode front mote
    rw [Mote.outcome_write_eq_error_iff (hsame.laidOut (hlaid mote hm)), hsame.refusal?_eq]
  case kept => exact fun mote _ => (Mote.assign_filter_refusal mode bindings mote).symm
  case unaudited => rw [unaudited_broadcastAll mode .quiet, hquiet, unaudited_reported]
  case quiet =>
    rintro rfl
    exact hquiet
  case audited =>
    rintro rfl front b back rfl
    refine ⟨_, trace_broadcastAll_append hlaid .audited front b, forall₂_filterMap fun mote hm => ?_⟩
    have hsame := Mote.same_assign .audited front mote
    have hreport := Mote.exists_report? (hsame.laidOut (hlaid mote hm)) b
    rw [hsame.refusal?_eq, hsame.symbol?_eq, hsame.id] at hreport
    obtain ⟨cause, hrefused, hentry⟩ | ⟨htaken, symbol, old, hs, hold, hentry⟩ := hreport
    · exact ⟨_, hentry, .inl ⟨cause, hrefused, rfl⟩⟩
    · exact ⟨_, hentry, .inr ⟨htaken, symbol, old, hs, hold, rfl⟩⟩

/-- A mote that has the variable, one that has nothing, and one that has a byte for it. -/
theorem broadcastAll_nodeByNode_refused :
    let narrow : Mote := Mote.withVariable { id := 3 } "tcp_test_port" .bool8
    let motes : List Mote := [.firmware 1, { id := 2 }, narrow]
    let bindings : List Binding :=
      [⟨"tcp_test_port", .int16 80⟩, ⟨"led", .bool true⟩, ⟨"tcp_test_port", .int16 1883⟩]
    (∀ mote ∈ motes, mote.Made) ∧ NodeByNode .audited bindings motes ∧
      (broadcastAll .audited bindings motes).1.map (·.ram.bytes) =
        [[0x5b, 0x07, 0, 0, 0, 0], [], [0]] ∧
      Binding.summary motes ⟨"tcp_test_port", .int16 80⟩ =
        .broadcast ⟨"tcp_test_port", .int16 80⟩ 3 2 := by
  intro narrow motes bindings
  have hmade : ∀ mote ∈ motes, mote.Made := by
    simp only [motes, List.forall_mem_cons, List.not_mem_nil, false_imp_iff, implies_true, and_true]
    exact ⟨Mote.made_firmware 1, .empty 2, (Mote.Made.empty 3).define _ _⟩
  exact ⟨hmade, broadcastAll_nodeByNode .audited bindings hmade, by decide, by decide⟩

/-- A mote that takes a binding is heard of too, if the broadcast is audited. -/
theorem broadcastAll_audited_firmware :
    let bindings : List Binding := [⟨"tcp_test_port", .int16 1883⟩]
    let motes : List Mote := [.firmware 1]
    (broadcastAll .audited bindings motes).2 =
        [.replacing 1 "tcp_test_port" ⟨0x1c00, 2⟩ (.int16 0) (.int16 1883),
          .broadcast ⟨"tcp_test_port", .int16 1883⟩ 1 0] ∧
      (broadcastAll .audited bindings motes).2 ≠ bindings.flatMap (Binding.reported motes) := by
  decide

end MoteBench
