import MoteBench.Simulator

/-! Waits, one delivery at a time. -/
namespace MoteBench.Cursor

variable {σ ν ε : Type} [Simulator σ ν ε]

/-- One delivery, and nothing dropped before it. -/
theorem trace_awaitNext (c : Cursor) (sim : σ) : (c.awaitNext sim).trace = [] := by
  unfold awaitNext
  split
  · rfl
  · split <;> rfl

theorem remaining_awaitNext {c : Cursor} {sim : σ} {d : Delivery}
    (h : (c.awaitNext sim).outcome = .ok d) :
    (c.awaitNext sim).cursor.remaining < c.remaining := by
  have taken := cursor_awaitNext h
  simp only [remaining, taken.2]
  omega

theorem awaitNext_of_limit {c : Cursor} (h : c.limit ≤ c.delivered) (sim : σ) :
    c.awaitNext sim =
      { outcome := .error (.limitReached c.limit (Simulator.now sim)), cursor := c, sim } := by
  rw [awaitNext, if_pos h]

theorem awaitNext_of_next {c : Cursor} (hlimit : c.delivered < c.limit) {sim sim' : σ}
    {d : Delivery} (h : Simulator.next sim = (some d, sim')) : c.awaitNext sim =
      { outcome := .ok d, cursor := { c with delivered := c.delivered + 1 }, sim := sim' } := by
  rw [awaitNext, if_neg (Nat.not_le_of_lt hlimit), h]

theorem awaitNext_of_none {c : Cursor} (hlimit : c.delivered < c.limit) {sim sim' : σ}
    (h : Simulator.next sim = (none, sim')) : c.awaitNext sim =
      { outcome := .error (.stalled (Simulator.now sim')), cursor := c, sim := sim' } := by
  rw [awaitNext, if_neg (Nat.not_le_of_lt hlimit), h]

theorem next_of_awaitNext {c : Cursor} {sim : σ} {d : Delivery}
    (h : (c.awaitNext sim).outcome = .ok d) :
    Simulator.next sim = (some d, (c.awaitNext sim).sim) := by
  have hlimit := (cursor_awaitNext h).1
  cases hn : Simulator.next sim with
  | mk d? sim' =>
    cases d? with
    | none =>
      rw [awaitNext, if_neg (Nat.not_le_of_lt hlimit), hn] at h
      cases h
    | some d' =>
      rw [awaitNext_of_next hlimit hn] at h ⊢
      obtain rfl := Except.ok.inj h
      rfl

/-- A message that is not wanted is dropped, and the wait goes on. -/
theorem awaitUntil_of_unwanted {wanted : Message → Bool} {c : Cursor} {sim : σ} {m : Message}
    (hm : (c.awaitNext sim).outcome = .ok (.message m)) (hw : wanted m = false) :
    c.awaitUntil wanted sim =
      let rest := (c.awaitNext sim).cursor.awaitUntil wanted (c.awaitNext sim).sim
      { rest with trace := .skipping m :: rest.trace } := by
  rw [awaitUntil]
  split
  · rename_i m' hm'
    obtain rfl := Delivery.message.inj (Except.ok.inj (hm.symm.trans hm'))
    rw [if_neg (by simp [hw])]
  · rename_i hother
    exact absurd hm (hother m)

/-- Anything else ends the wait: a wanted message, a timeout or a failure. -/
theorem awaitUntil_of_wanted {wanted : Message → Bool} {c : Cursor} {sim : σ}
    (h : ∀ m, (c.awaitNext sim).outcome = .ok (.message m) → wanted m = true) :
    c.awaitUntil wanted sim = c.awaitNext sim := by
  rw [awaitUntil]
  split
  · rename_i m hm
    rw [if_pos (h m hm)]
  · rfl

/-- The first delivery is unwanted, or the wait ends with it. -/
theorem unwanted_or_wanted (wanted : Message → Bool) (c : Cursor) (sim : σ) :
    (∃ m, (c.awaitNext sim).outcome = .ok (.message m) ∧ wanted m = false) ∨
      ∀ m, (c.awaitNext sim).outcome = .ok (.message m) → wanted m = true := by
  by_cases h : ∃ m, (c.awaitNext sim).outcome = .ok (.message m) ∧ wanted m = false
  · exact .inl h
  · exact .inr fun m hm => Bool.of_not_eq_false fun hw => h ⟨m, hm, hw⟩

end MoteBench.Cursor
