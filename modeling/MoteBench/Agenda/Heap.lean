import MoteBench.Time

/-!
A heap of items ordered by the time at which they are due, and among equal times by sequence
number. Two heaps are merged along their right spines, and every node on the way swaps its sides,
which keeps the spines short over a run of merges.
-/
namespace MoteBench.Agenda

structure Item (α : Type) where
  due : Instant
  sequence : Nat
  payload : α
  deriving DecidableEq, Repr

variable {α : Type}

def Item.Precedes (a b : Item α) : Prop :=
  a.due < b.due ∨ a.due = b.due ∧ a.sequence ≤ b.sequence

instance (a b : Item α) : Decidable (a.Precedes b) :=
  inferInstanceAs (Decidable (a.due < b.due ∨ a.due = b.due ∧ a.sequence ≤ b.sequence))

theorem Item.precedes_iff {a b : Item α} : a.Precedes b ↔
    a.due.micros < b.due.micros ∨ a.due.micros = b.due.micros ∧ a.sequence ≤ b.sequence := by
  simp [Precedes, Instant.lt_iff, Instant.ext_iff]

theorem Item.Precedes.refl (a : Item α) : a.Precedes a := .inr ⟨rfl, Nat.le_refl _⟩

theorem Item.Precedes.trans {a b c : Item α} (hab : a.Precedes b) (hbc : b.Precedes c) :
    a.Precedes c := by
  rw [precedes_iff] at *
  omega

theorem Item.precedes_total (a b : Item α) : a.Precedes b ∨ b.Precedes a := by
  simp only [precedes_iff]
  omega

inductive Heap (α : Type) where
  | leaf
  | node (left : Heap α) (top : Item α) (right : Heap α)
  deriving Repr

namespace Heap

def items : Heap α → List (Item α)
  | .leaf => []
  | .node l x r => x :: (l.items ++ r.items)

/-- No item stands above one that precedes it. -/
def Ordered : Heap α → Prop
  | .leaf => True
  | .node l x r => (∀ i ∈ l.items ++ r.items, x.Precedes i) ∧ l.Ordered ∧ r.Ordered

/-- Takes a heap into the node `l x r`, given how to take one into `r`. -/
def absorb (l : Heap α) (x : Item α) (r : Heap α) (intoRight : Heap α → Heap α) : Heap α → Heap α
  | .leaf => .node l x r
  | .node l' y r' =>
    if x.Precedes y then .node (intoRight (.node l' y r')) x l
    else .node (absorb l x r intoRight r') y l'

def merge : Heap α → Heap α → Heap α
  | .leaf => id
  | .node l x r => absorb l x r (merge r)

theorem items_merge (g h : Heap α) : (merge g h).items.Perm (g.items ++ h.items) := by
  induction g generalizing h with
  | leaf => exact .refl _
  | node l x r _ ihr =>
    induction h with
    | leaf => simp [merge, absorb, items]
    | node l' y r' _ ihr' =>
      simp only [merge, absorb]
      split
      · refine .cons x (((ihr _).append_right l.items).trans ?_)
        exact List.perm_append_comm.trans (.of_eq (List.append_assoc ..).symm)
      · refine (List.Perm.cons y (ihr'.append_right l'.items)).trans ?_
        rw [List.append_assoc]
        refine List.perm_middle.symm.trans (.append_left _ (.cons y ?_))
        exact List.perm_append_comm

theorem mem_merge {g h : Heap α} {i : Item α} :
    i ∈ (merge g h).items ↔ i ∈ g.items ∨ i ∈ h.items := by
  rw [(items_merge g h).mem_iff, List.mem_append]

theorem length_items_merge (g h : Heap α) :
    (merge g h).items.length = g.items.length + h.items.length := by
  rw [(items_merge g h).length_eq, List.length_append]

theorem Ordered.top_precedes {l r : Heap α} {x : Item α} (h : (node l x r).Ordered) :
    ∀ i ∈ (node l x r).items, x.Precedes i := by
  intro i hi
  rcases List.mem_cons.1 hi with rfl | hi
  · exact .refl _
  · exact h.1 i hi

theorem Ordered.merge {g h : Heap α} (hg : g.Ordered) (hh : h.Ordered) : (merge g h).Ordered := by
  induction g generalizing h with
  | leaf => exact hh
  | node l x r _ ihr =>
    induction h with
    | leaf => exact hg
    | node l' y r' _ ihr' =>
      simp only [Heap.merge, absorb]
      split
      · rename_i hxy
        refine ⟨fun i hi => ?_, ihr hg.2.2 hh, hg.2.1⟩
        rcases List.mem_append.1 hi with hi | hi
        · rcases mem_merge.1 hi with hi | hi
          · exact hg.1 i (List.mem_append_right _ hi)
          · exact hxy.trans (hh.top_precedes i hi)
        · exact hg.1 i (List.mem_append_left _ hi)
      · rename_i hxy
        have hyx := (Item.precedes_total x y).resolve_left hxy
        refine ⟨fun i hi => ?_, ihr' hh.2.2, hh.2.1⟩
        rcases List.mem_append.1 hi with hi | hi
        · rcases mem_merge (g := node l x r).1 hi with hi | hi
          · exact hyx.trans (hg.top_precedes i hi)
          · exact hh.1 i (List.mem_append_right _ hi)
        · exact hh.1 i (List.mem_append_left _ hi)

end Heap

end MoteBench.Agenda
