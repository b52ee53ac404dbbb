import MoteBench.Agenda.Heap

/-!
What is still to come in a simulation, kept so that the item due first is at hand. Items due at the
same time come in the order in which they were put down. An agenda is looked at through `toList`:
`toList_push` says where a new item goes, and `toList_of_pop?` that the first one is taken.
-/
namespace MoteBench

open Agenda

/-- Every item carries its number in the order of arrival, and `next` is still to be given. -/
structure Agenda (α : Type) where
  heap : Heap α := .leaf
  next : Nat := 0
  ordered : heap.Ordered := by trivial
  fresh : ∀ i ∈ heap.items, i.sequence < next := by simp [Agenda.Heap.items]
  distinct : heap.items.Pairwise (·.sequence ≠ ·.sequence) := by simp [Agenda.Heap.items]

namespace Agenda

variable {α : Type}

def size (a : Agenda α) : Nat := a.heap.items.length

/-- All items, in the order in which they come up. -/
def toList (a : Agenda α) : List (Item α) := a.heap.items.mergeSort (·.Precedes ·)

theorem toList_perm (a : Agenda α) : a.toList.Perm a.heap.items := List.mergeSort_perm _ _

theorem pairwise_toList (a : Agenda α) : a.toList.Pairwise Item.Precedes := by
  have sorted : a.toList.Pairwise fun x y => decide (x.Precedes y) = true :=
    List.pairwise_mergeSort (fun _ _ _ => by simpa using Item.Precedes.trans)
      (fun x y => by simpa using Item.precedes_total x y) _
  exact sorted.imp of_decide_eq_true

theorem eq_of_sequence_eq (a : Agenda α) {i j : Item α} (hi : i ∈ a.heap.items)
    (hj : j ∈ a.heap.items) (h : i.sequence = j.sequence) : i = j := by
  obtain ⟨m, hm, rfl⟩ := List.getElem_of_mem hi
  obtain ⟨n, hn, rfl⟩ := List.getElem_of_mem hj
  have apart := List.pairwise_iff_getElem.1 a.distinct
  rcases Nat.lt_trichotomy m n with lt | rfl | lt
  · exact absurd h (apart m n hm hn lt)
  · rfl
  · exact absurd h.symm (apart n m hn hm lt)

/-- No two items carry the same number, so there is only one way to put them in order. -/
theorem eq_toList {a : Agenda α} {items : List (Item α)} (perm : items.Perm a.heap.items)
    (sorted : items.Pairwise Item.Precedes) : items = a.toList := by
  refine (perm.trans a.toList_perm.symm).eq_of_pairwise ?_ sorted a.pairwise_toList
  intro i j hi hj hij hji
  refine a.eq_of_sequence_eq (perm.mem_iff.1 hi) (a.toList_perm.mem_iff.1 hj) ?_
  rw [Item.precedes_iff] at hij hji
  omega

def push (a : Agenda α) (due : Instant) (x : α) : Agenda α where
  heap := a.heap.merge (.node .leaf ⟨due, a.next, x⟩ .leaf)
  next := a.next + 1
  ordered := a.ordered.merge ⟨by simp [Heap.items], trivial, trivial⟩
  fresh i hi := by
    rcases Heap.mem_merge.1 hi with hi | hi
    · exact Nat.lt_succ_of_lt (a.fresh i hi)
    · obtain rfl : i = _ := by simpa [Heap.items] using hi
      exact Nat.lt_succ_self _
  distinct := by
    refine ((Heap.items_merge _ _).pairwise_iff fun h => h.symm).2 ?_
    refine List.pairwise_append.2 ⟨a.distinct, by simp [Heap.items], fun i hi j hj => ?_⟩
    obtain rfl : j = _ := by simpa [Heap.items] using hj
    exact Nat.ne_of_lt (a.fresh i hi)

/-- A new item comes after everything that is due no later, and before all that is. -/
theorem toList_push (a : Agenda α) (due : Instant) (x : α) :
    (a.push due x).toList = a.toList.filter (·.due ≤ due) ++
      ⟨due, a.next, x⟩ :: a.toList.filter (¬ ·.due ≤ due) := by
  have fresh : ∀ i ∈ a.toList, i.sequence < a.next := fun i hi =>
    a.fresh i (a.toList_perm.mem_iff.1 hi)
  have early : ∀ i ∈ a.toList.filter (·.due ≤ due), i.due.micros ≤ due.micros := fun i hi =>
    of_decide_eq_true (List.mem_filter.1 hi).2
  have late : ∀ i ∈ a.toList.filter (¬ ·.due ≤ due), due.micros < i.due.micros := fun i hi =>
    Nat.lt_of_not_le (of_decide_eq_true (List.mem_filter.1 hi).2)
  refine (eq_toList ?_ ?_).symm
  · have heap : (a.push due x).heap.items.Perm (⟨due, a.next, x⟩ :: a.heap.items) :=
      (Heap.items_merge _ _).trans List.perm_append_comm
    refine (List.perm_middle.trans (.cons _ (.trans ?_ a.toList_perm))).trans heap.symm
    simpa using List.filter_append_perm (fun i : Item α => decide (i.due ≤ due)) a.toList
  · refine List.pairwise_append.2 ⟨a.pairwise_toList.filter _,
      List.pairwise_cons.2 ⟨fun i hi => .inl (late i hi), a.pairwise_toList.filter _⟩,
      fun i hi j hj => ?_⟩
    have before := early i hi
    rw [Item.precedes_iff]
    rcases List.mem_cons.1 hj with rfl | hj
    · have := fresh i (List.mem_filter.1 hi).1
      exact (Nat.lt_or_eq_of_le before).imp_right fun h => ⟨h, Nat.le_of_lt this⟩
    · exact .inl (Nat.lt_of_le_of_lt before (late j hj))

/-- The item that is due first, and the agenda without it. -/
def pop? (a : Agenda α) : Option (Item α × Agenda α) :=
  match h : a.heap with
  | .leaf => none
  | .node l x r =>
    have perm := Heap.items_merge l r
    some (x, {
      heap := l.merge r
      next := a.next
      ordered := by
        have ordered := h ▸ a.ordered
        exact ordered.2.1.merge ordered.2.2
      fresh := fun i hi => a.fresh i (by
        rw [h]
        exact List.mem_cons_of_mem _ (perm.mem_iff.1 hi))
      distinct := by
        have distinct := h ▸ a.distinct
        exact (perm.pairwise_iff fun h => h.symm).2 (List.pairwise_cons.1 distinct).2 })

theorem heap_of_pop? {a b : Agenda α} {i : Item α} (h : a.pop? = some (i, b)) :
    ∃ l r, a.heap = .node l i r ∧ b.heap = l.merge r ∧ b.next = a.next := by
  unfold pop? at h
  split at h
  · simp at h
  · rename_i l x r hheap
    obtain ⟨rfl, rfl⟩ := Prod.mk.inj (Option.some.inj h)
    exact ⟨l, r, hheap, rfl, rfl⟩

theorem pop?_eq_none_iff {a : Agenda α} : a.pop? = none ↔ a.toList = [] := by
  rw [← List.length_eq_zero_iff, a.toList_perm.length_eq]
  unfold pop?
  split <;> rename_i h <;> simp [h, Heap.items]

theorem toList_of_pop? {a b : Agenda α} {i : Item α} (h : a.pop? = some (i, b)) :
    a.toList = i :: b.toList := by
  obtain ⟨l, r, ha, hb, _⟩ := heap_of_pop? h
  have perm : (i :: b.toList).Perm a.heap.items := by
    rw [ha]
    exact .cons i (b.toList_perm.trans (hb ▸ Heap.items_merge l r))
  refine (eq_toList perm (List.pairwise_cons.2 ⟨fun j hj => ?_, b.pairwise_toList⟩)).symm
  have member := perm.mem_iff.1 (List.mem_cons_of_mem i hj)
  rw [ha] at member
  exact (ha ▸ a.ordered : (Heap.node l i r).Ordered).top_precedes j member

theorem size_of_pop? {a b : Agenda α} {i : Item α} (h : a.pop? = some (i, b)) :
    b.size < a.size := by
  obtain ⟨l, r, ha, hb, _⟩ := heap_of_pop? h
  simp [size, ha, hb, Heap.items, Heap.length_items_merge]

end Agenda

end MoteBench
