import MoteBench.Memory.Access

/-!
What an access comes to, on any node. A variable that cannot be resolved is not touched; otherwise the
store decides, and the access mode decides only what is known of the value before.
-/
namespace MoteBench.Memory

variable {ν : Type}

section Image

variable [MemoryImage ν] {node : ν} {name : String} {width : Width} {symbol : Symbol}

theorem resolve_of_none (h : MemoryImage.symbol? node name = none) (width : Width) :
    resolve node name width = .error (.variableNotFound name) := by
  rw [resolve, h]

theorem resolve_of_size_ne (h : MemoryImage.symbol? node name = some symbol)
    (hw : symbol.size ≠ width.bytes) :
    resolve node name width = .error (.widthMismatch name width.bytes symbol.size) := by
  rw [resolve, h]
  exact if_neg hw

theorem resolve_of_size_eq (h : MemoryImage.symbol? node name = some symbol)
    (hw : symbol.size = width.bytes) : resolve node name width = .ok symbol := by
  rw [resolve, h]
  exact if_pos hw

theorem resolve_eq_ok_iff : resolve node name width = .ok symbol ↔
    MemoryImage.symbol? node name = some symbol ∧ symbol.size = width.bytes := by
  refine ⟨fun hr => ?_, fun ⟨hs, hw⟩ => resolve_of_size_eq hs hw⟩
  cases hs : MemoryImage.symbol? node name with
  | none => cases (resolve_of_none hs width).symm.trans hr
  | some found =>
    by_cases hw : found.size = width.bytes
    · obtain rfl := Except.ok.inj ((resolve_of_size_eq hs hw).symm.trans hr)
      exact ⟨rfl, hw⟩
    · cases (resolve_of_size_ne hs hw).symm.trans hr

theorem read_of_none (h : MemoryImage.symbol? node name = none) (width : Width) :
    read node name width = .error (.variableNotFound name) := by
  rw [read, resolve_of_none h]

theorem read_of_size_ne (h : MemoryImage.symbol? node name = some symbol)
    (hw : symbol.size ≠ width.bytes) :
    read node name width = .error (.widthMismatch name width.bytes symbol.size) := by
  rw [read, resolve_of_size_ne h hw]

end Image

variable [Node ν] {node : ν} {name : String} {symbol : Symbol} {v : Value}

/-- The value that a write reports to have replaced. -/
def previous (mode : AccessMode) (node : ν) (name : String) (width : Width) : Option Value :=
  match mode with
  | .quiet => none
  | .audited => (read node name width).toOption

theorem audit_fst (h : resolve node name v.width = .ok symbol) :
    (audit node name symbol v).1 = previous .audited node name v.width := by
  rw [previous, read, h, audit]
  dsimp only
  cases readAt node symbol v.width <;> rfl

theorem tryWrite_of_unresolved {cause : AccessError} (h : resolve node name v.width = .error cause)
    (mode : AccessMode) : tryWrite mode node name v = ⟨.error cause, node, []⟩ := by
  rw [tryWrite, h]

/-- A write that gets as far as the store. -/
theorem tryWrite_of_resolved (h : resolve node name v.width = .ok symbol) (mode : AccessMode) :
    (tryWrite mode node name v).outcome =
        (MemoryImage.store node symbol.address (v.encode (MemoryImage.byteOrder node))).1.map
          (fun _ => ⟨symbol, previous mode node name v.width⟩) ∧
      (tryWrite mode node name v).node =
        (MemoryImage.store node symbol.address (v.encode (MemoryImage.byteOrder node))).2 := by
  have haudit := audit_fst h
  rw [tryWrite, h]
  dsimp only
  cases hs : MemoryImage.store node symbol.address (v.encode (MemoryImage.byteOrder node)) with
  | mk answer stored =>
    cases answer with
    | error cause => exact ⟨rfl, rfl⟩
    | ok done =>
      cases mode with
      | quiet => exact ⟨rfl, rfl⟩
      | audited =>
        have hreport : (⟨symbol, (audit node name symbol v).1⟩ : WriteReport) =
            ⟨symbol, previous .audited node name v.width⟩ := by rw [haudit]
        exact ⟨congrArg Except.ok hreport, rfl⟩

/-! Both modes write the same. -/

theorem node_tryWrite (mode mode' : AccessMode) (node : ν) (name : String) (v : Value) :
    (tryWrite mode node name v).node = (tryWrite mode' node name v).node := by
  cases hr : resolve node name v.width with
  | error cause => rw [tryWrite_of_unresolved hr, tryWrite_of_unresolved hr]
  | ok symbol => rw [(tryWrite_of_resolved hr mode).2, (tryWrite_of_resolved hr mode').2]

/-- Whether a write fails, and why, is the same in both modes. -/
theorem outcome_tryWrite (mode mode' : AccessMode) (node : ν) (name : String) (v : Value) :
    (tryWrite mode node name v).outcome.map (·.symbol) =
      (tryWrite mode' node name v).outcome.map (·.symbol) := by
  cases hr : resolve node name v.width with
  | error cause => rw [tryWrite_of_unresolved hr, tryWrite_of_unresolved hr]
  | ok symbol =>
    rw [(tryWrite_of_resolved hr mode).1, (tryWrite_of_resolved hr mode').1]
    cases (MemoryImage.store node symbol.address (v.encode (MemoryImage.byteOrder node))).1 <;> rfl

/-- A failed write either did not get as far as the store or was refused by it. -/
theorem tryWrite_eq_error {mode : AccessMode} {cause : AccessError}
    (h : (tryWrite mode node name v).outcome = .error cause) :
    (tryWrite mode node name v).node = node ∨ ∃ address bs,
      MemoryImage.store node address bs = (.error cause, (tryWrite mode node name v).node) := by
  cases hr : resolve node name v.width with
  | error cause' => exact .inl (by rw [tryWrite_of_unresolved hr])
  | ok symbol =>
    obtain ⟨houtcome, hnode⟩ := tryWrite_of_resolved hr mode
    refine .inr ⟨symbol.address, v.encode (MemoryImage.byteOrder node), ?_⟩
    rw [h] at houtcome
    rw [hnode]
    cases ha : (MemoryImage.store node symbol.address (v.encode (MemoryImage.byteOrder node))).1 with
    | error cause' =>
      rw [ha] at houtcome
      obtain rfl := Except.error.inj houtcome
      exact Prod.ext ha rfl
    | ok done =>
      rw [ha] at houtcome
      cases houtcome

theorem tryWrite_eq_ok {mode : AccessMode} {report : WriteReport}
    (h : (tryWrite mode node name v).outcome = .ok report) :
    MemoryImage.store node report.symbol.address (v.encode (MemoryImage.byteOrder node)) =
        (.ok (), (tryWrite mode node name v).node) ∧
      report.previous = previous mode node name v.width := by
  cases hr : resolve node name v.width with
  | error cause =>
    rw [tryWrite_of_unresolved hr] at h
    cases h
  | ok symbol =>
    obtain ⟨houtcome, hnode⟩ := tryWrite_of_resolved hr mode
    rw [h] at houtcome
    rw [hnode]
    cases ha : (MemoryImage.store node symbol.address (v.encode (MemoryImage.byteOrder node))).1 with
    | error cause =>
      rw [ha] at houtcome
      cases houtcome
    | ok done =>
      rw [ha] at houtcome
      obtain rfl := Except.ok.inj houtcome
      exact ⟨Prod.ext ha rfl, rfl⟩

end MoteBench.Memory
