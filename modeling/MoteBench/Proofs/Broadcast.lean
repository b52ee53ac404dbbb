import MoteBench.Broadcast
import MoteBench.Mote
import MoteBench.Proofs.Memory.Access

/-!
What a broadcast does to the nodes, one by one. Each is assigned the same values, and the access mode
decides what is reported but not what is written.
-/
namespace MoteBench

open Memory

section Nodes

variable {ν : Type} [Node ν]

/-- A node that is given bindings, one after the other. -/
def assign (mode : AccessMode) (bindings : List Binding) (node : ν) : ν :=
  bindings.foldl (fun node b => (write mode node b.name b.value).node) node

theorem assign_cons (mode : AccessMode) (b : Binding) (rest : List Binding) (node : ν) :
    assign mode (b :: rest) node = assign mode rest (write mode node b.name b.value).node := rfl

theorem assign_append (mode : AccessMode) (front back : List Binding) (node : ν) :
    assign mode (front ++ back) node = assign mode back (assign mode front node) :=
  List.foldl_append

theorem assign_mode (mode mode' : AccessMode) (bindings : List Binding) (node : ν) :
    assign mode bindings node = assign mode' bindings node := by
  induction bindings generalizing node with
  | nil => rfl
  | cons b rest ih =>
    have hfirst : (write mode node b.name b.value).node = (write mode' node b.name b.value).node := by
      rw [node_write, node_write, node_tryWrite mode mode']
    rw [assign_cons, assign_cons, hfirst, ih]

/-- A broadcast gives every node the same bindings. -/
theorem nodes_broadcastAll_eq_map (mode : AccessMode) (bindings : List Binding) (nodes : List ν) :
    (broadcastAll mode bindings nodes).1 = nodes.map (assign mode bindings) := by
  induction bindings generalizing nodes with
  | nil => exact (List.map_id nodes).symm
  | cons b rest ih =>
    have hfirst : (broadcast mode b nodes).1 =
        nodes.map fun node => (write mode node b.name b.value).node := by
      simp only [broadcast, List.map_map, Function.comp_def]
    rw [broadcastAll]
    dsimp only
    rw [ih, hfirst, List.map_map]
    rfl

theorem nodes_broadcastAll (mode mode' : AccessMode) (bindings : List Binding) (nodes : List ν) :
    (broadcastAll mode bindings nodes).1 = (broadcastAll mode' bindings nodes).1 := by
  rw [nodes_broadcastAll_eq_map, nodes_broadcastAll_eq_map]
  exact List.map_congr_left fun node _ => assign_mode mode mode' bindings node

theorem broadcastAll_append (mode : AccessMode) (front back : List Binding)
    (nodes : List ν) : broadcastAll mode (front ++ back) nodes =
      ((broadcastAll mode back (broadcastAll mode front nodes).1).1,
        (broadcastAll mode front nodes).2 ++
          (broadcastAll mode back (broadcastAll mode front nodes).1).2) := by
  induction front generalizing nodes with
  | nil => rfl
  | cons b rest ih => simp only [List.cons_append, broadcastAll, ih, List.append_assoc]

/-- Broadcasts, one after the other, are one assignment to each node. -/
theorem foldl_broadcastAll (mode : AccessMode) (rounds : List (List Binding)) (nodes : List ν) :
    rounds.foldl (fun nodes bindings => (broadcastAll mode bindings nodes).1) nodes =
      nodes.map (assign mode rounds.flatten) := by
  induction rounds generalizing nodes with
  | nil => exact (List.map_id nodes).symm
  | cons bindings rounds ih =>
    rw [List.foldl_cons, ih, nodes_broadcastAll_eq_map, List.map_map, List.flatten_cons]
    exact List.map_congr_left fun node _ => (assign_append mode bindings rounds.flatten node).symm

end Nodes

/-! Motes keep their numbers and their places. -/

theorem id_tryWrite (mode : AccessMode) (mote : Mote) (name : String) (v : Value) :
    (tryWrite mode mote name v).node.id = mote.id := by
  cases hr : resolve mote name v.width with
  | error cause => rw [tryWrite_of_unresolved hr]
  | ok symbol =>
    rw [(tryWrite_of_resolved hr mode).2]
    rfl

theorem id_assign (mode : AccessMode) (bindings : List Binding) (mote : Mote) :
    (assign mode bindings mote).id = mote.id := by
  induction bindings generalizing mote with
  | nil => rfl
  | cons b rest ih => rw [assign_cons, ih, node_write, id_tryWrite]

theorem ids_broadcastAll (mode : AccessMode) (bindings : List Binding) (motes : List Mote) :
    (broadcastAll mode bindings motes).1.map (·.id) = motes.map (·.id) := by
  rw [nodes_broadcastAll_eq_map, List.map_map]
  exact List.map_congr_left fun mote _ => id_assign mode bindings mote

end MoteBench
