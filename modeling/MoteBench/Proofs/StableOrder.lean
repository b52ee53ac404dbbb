import Mathlib.Data.List.Sort

/-!
Sorting by a key that keeps the order of equal keys. A list that is sorted and has the same elements
in the same order under each key is the only outcome.
-/
namespace MoteBench.StableOrder

variable {α κ : Type} [LinearOrder κ] {key : α → κ}

theorem filter_mergeSort (l : List α) (k : κ) :
    (l.mergeSort (key · ≤ key ·)).filter (key · = k) = l.filter (key · = k) := by
  have hperm := (l.mergeSort_perm (key · ≤ key ·)).filter (key · = k)
  have hequal : (l.filter (key · = k)).Pairwise fun a b => decide (key a ≤ key b) = true := by
    refine List.pairwise_filter.mpr (List.pairwise_of_forall fun a b ha hb => ?_)
    simp_all
  have hsub : (l.filter (key · = k)).Sublist (l.mergeSort (key · ≤ key ·)) :=
    List.sublist_mergeSort (by simpa using fun a b c => le_trans)
      (by simpa using fun a b => le_total _ _) hequal List.filter_sublist
  have hfiltered := hsub.filter (key · = k)
  rw [List.filter_filter] at hfiltered
  simp only [Bool.and_self] at hfiltered
  exact (hfiltered.eq_of_length hperm.length_eq.symm).symm

theorem head_le_of_filter_eq {a : α} {l l' : List α} (hsorted : (a :: l).Pairwise (key · ≤ key ·))
    (h : ∀ k, (a :: l).filter (key · = k) = l'.filter (key · = k)) :
    ∀ b ∈ l', key a ≤ key b := by
  intro b hb
  have hmem : b ∈ (a :: l).filter (key · = key b) := by
    rw [h]
    simp [hb]
  rcases List.mem_cons.mp (List.mem_of_mem_filter hmem) with rfl | hl
  · exact le_rfl
  · exact (List.pairwise_cons.mp hsorted).1 b hl

/-- Sorted lists are told apart by some key. -/
theorem eq_of_filter_eq {l l' : List α} (hl : l.Pairwise (key · ≤ key ·))
    (hl' : l'.Pairwise (key · ≤ key ·)) (h : ∀ k, l.filter (key · = k) = l'.filter (key · = k)) :
    l = l' := by
  induction l generalizing l' with
  | nil =>
    cases l' with
    | nil => rfl
    | cons b l' => simpa using h (key b)
  | cons a l ih =>
    cases l' with
    | nil => simpa using h (key a)
    | cons b l' =>
      have hab : key a = key b := le_antisymm (head_le_of_filter_eq hl h b List.mem_cons_self)
        (head_le_of_filter_eq hl' (fun k => (h k).symm) a List.mem_cons_self)
      have hheads := h (key a)
      simp only [List.filter_cons, hab, decide_true, if_true] at hheads
      obtain ⟨rfl, -⟩ := List.cons.inj hheads
      refine congrArg (a :: ·) (ih (List.pairwise_cons.mp hl).2 (List.pairwise_cons.mp hl').2 ?_)
      intro k
      have hk := h k
      rw [List.filter_cons, List.filter_cons] at hk
      split at hk
      · exact (List.cons.inj hk).2
      · exact hk

/-- An element is inserted behind all others of its key. -/
theorem filter_orderedInsert {l : List α} (h : l.Pairwise (key · ≤ key ·)) (a : α) (k : κ) :
    (l.orderedInsert (key · < key ·) a).filter (key · = k) = (l ++ [a]).filter (key · = k) := by
  induction l with
  | nil => rfl
  | cons b l ih =>
    obtain ⟨hb, hl⟩ := List.pairwise_cons.mp h
    by_cases hlt : key a < key b
    · rw [List.orderedInsert_cons, if_pos hlt]
      by_cases hk : key a = k
      · have hnone : (b :: l).filter (key · = k) = [] := by
          refine List.filter_eq_nil_iff.mpr fun c hc => ?_
          have hlater : key a < key c := by
            rcases List.mem_cons.mp hc with rfl | hc
            · exact hlt
            · exact lt_of_lt_of_le hlt (hb c hc)
          simpa [← hk] using hlater.ne'
        rw [List.filter_cons, List.filter_append, hnone]
        simp [hk]
      · rw [List.filter_cons, List.filter_append]
        simp [hk]
    · rw [List.orderedInsert_cons, if_neg hlt, List.cons_append, List.filter_cons, List.filter_cons,
        ih hl]

/-- A sorted list falls apart at any key. -/
theorem filter_append_filter_not {l : List α} (h : l.Pairwise (key · ≤ key ·)) (k : κ) :
    l.filter (key · ≤ k) ++ l.filter (¬ key · ≤ k) = l := by
  induction l with
  | nil => rfl
  | cons a l ih =>
    obtain ⟨ha, hl⟩ := List.pairwise_cons.mp h
    by_cases hk : key a ≤ k
    · simpa [hk] using ih hl
    · have hlate : ∀ b ∈ a :: l, ¬ key b ≤ k := by
        intro b hb hle
        rcases List.mem_cons.mp hb with rfl | hb
        · exact hk hle
        · exact hk (le_trans (ha b hb) hle)
      rw [List.filter_eq_nil_iff.mpr (by simpa using hlate),
        List.filter_eq_self.mpr (by simpa using hlate), List.nil_append]

theorem pairwise_mergeSort (l : List α) :
    (l.mergeSort (key · ≤ key ·)).Pairwise (key · ≤ key ·) := by
  have hmerged : (l.mergeSort (key · ≤ key ·)).Pairwise
      fun a b => decide (key a ≤ key b) = true :=
    List.pairwise_mergeSort (by simpa using fun a b c => le_trans)
      (by simpa using fun a b => le_total _ _) l
  exact hmerged.imp of_decide_eq_true

theorem eq_mergeSort {l s : List α} (hsorted : s.Pairwise (key · ≤ key ·))
    (h : ∀ k, s.filter (key · = k) = l.filter (key · = k)) :
    s = l.mergeSort (key · ≤ key ·) := by
  apply eq_of_filter_eq hsorted (pairwise_mergeSort l)
  intro k
  rw [h, filter_mergeSort]

end MoteBench.StableOrder
