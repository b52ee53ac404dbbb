import MoteBench.Proofs.Run.Recorded

/-!
A wait as a search. What a simulation answers to one request for the next delivery after the other
stands before the wait begins. The wait finds the first answer that is a timeout or a wanted message,
if it may make that many requests and the simulation does not run dry before.
-/
namespace MoteBench

namespace Simulator

variable {σ ν ε : Type} [Simulator σ ν ε]

/-- The simulation after `n` requests for the next delivery. -/
def asked : Nat → σ → σ
  | 0, sim => sim
  | n + 1, sim => asked n (next sim).2

/-- The answers to `n` requests. -/
def answers : Nat → σ → List (Option Delivery)
  | 0, _ => []
  | n + 1, sim => (next sim).1 :: answers n (next sim).2

theorem asked_succ (n : Nat) (sim : σ) : asked (n + 1) sim = (next (asked n sim)).2 := by
  induction n generalizing sim with
  | zero => rfl
  | succ n ih => exact ih (next sim).2

theorem answers_succ (n : Nat) (sim : σ) :
    answers (n + 1) sim = answers n sim ++ [(next (asked n sim)).1] := by
  induction n generalizing sim with
  | zero => rfl
  | succ n ih => exact congrArg ((next sim).1 :: ·) (ih (next sim).2)

@[simp] theorem length_answers (n : Nat) (sim : σ) : (answers n sim).length = n := by
  induction n generalizing sim with
  | zero => rfl
  | succ n ih => exact congrArg (· + 1) (ih (next sim).2)

theorem asked_recorded (n : Nat) (s : Recorded σ) :
    asked n s = ⟨asked n s.sim, s.answers ++ answers n s.sim⟩ := by
  induction n generalizing s with
  | zero => exact congrArg (Recorded.mk s.sim) (List.append_nil s.answers).symm
  | succ n ih =>
    refine (ih (next s).2).trans (congrArg (Recorded.mk _) ?_)
    exact List.append_assoc s.answers [(next s.sim).1] (answers n (next s.sim).2)

theorem answers_recorded (n : Nat) (s : Recorded σ) : answers n s = answers n s.sim := by
  induction n generalizing s with
  | zero => rfl
  | succ n ih => exact congrArg ((next s.sim).1 :: ·) (ih (next s).2)

/-- The simulation after `n` requests, with their answers on record. -/
def recorded (n : Nat) (sim : σ) : Recorded σ := ⟨asked n sim, answers n sim⟩

theorem asked_eq_recorded (n : Nat) (sim : σ) : asked n ({ sim } : Recorded σ) = recorded n sim :=
  asked_recorded n { sim }

theorem next_asked_recorded (n : Nat) (sim : σ) :
    (next (asked n ({ sim } : Recorded σ))).1 = (next (asked n sim)).1 := by
  rw [asked_eq_recorded]
  rfl

end Simulator

open Simulator

/-- Whether a delivery ends the wait for a wanted message. -/
def Delivery.endsWait (wanted : Message → Bool) : Delivery → Bool
  | .message m => wanted m
  | .timeout _ => true

namespace Cursor

variable {σ ν ε : Type} [Simulator σ ν ε] {wanted : Message → Bool} {sim : σ}
  {skipped : List Message}

/-- The first answers of the simulation are these messages, and none of them is wanted. -/
structure Skips (wanted : Message → Bool) (sim : σ) (skipped : List Message) : Prop where
  unwanted : ∀ m ∈ skipped, wanted m = false
  answers : answers skipped.length sim = skipped.map fun m => some (.message m)

theorem skips_nil (wanted : Message → Bool) (sim : σ) : Skips wanted sim [] := ⟨by simp, rfl⟩

theorem skips_cons_iff {m : Message} : Skips wanted sim (m :: skipped) ↔
    wanted m = false ∧ (next sim).1 = some (.message m) ∧ Skips wanted (next sim).2 skipped := by
  constructor
  · rintro ⟨hunwanted, hanswers⟩
    obtain ⟨hm, hrest⟩ := List.forall_mem_cons.mp hunwanted
    obtain ⟨hfirst, hanswers⟩ := List.cons.inj hanswers
    exact ⟨hm, hfirst, hrest, hanswers⟩
  · rintro ⟨hm, hfirst, hrest, hanswers⟩
    refine ⟨List.forall_mem_cons.mpr ⟨hm, hrest⟩, ?_⟩
    rw [List.length_cons, Simulator.answers, hfirst, hanswers]
    rfl

/-- Up to a limit, either all answers are skipped or there is a first one that is not. -/
theorem exists_skips (wanted : Message → Bool) (budget : Nat) (sim : σ) :
    ∃ skipped, Skips wanted sim skipped ∧ (skipped.length = budget ∨ skipped.length < budget ∧
      ∀ d, (next (asked skipped.length sim)).1 = some d → d.endsWait wanted = true) := by
  induction budget generalizing sim with
  | zero => exact ⟨[], skips_nil wanted sim, .inl rfl⟩
  | succ budget ih =>
    by_cases hdropped : ∃ m, (next sim).1 = some (.message m) ∧ wanted m = false
    · obtain ⟨m, hm, hw⟩ := hdropped
      obtain ⟨skipped, hskips, hcases⟩ := ih (next sim).2
      refine ⟨m :: skipped, skips_cons_iff.mpr ⟨hw, hm, hskips⟩, ?_⟩
      exact hcases.imp (congrArg (· + 1)) (And.imp_left Nat.succ_lt_succ)
    · refine ⟨[], skips_nil wanted sim, .inr ⟨Nat.succ_pos budget, fun d hd => ?_⟩⟩
      cases d with
      | timeout time => rfl
      | message m => exact Bool.of_not_eq_false fun hw => hdropped ⟨m, hd, hw⟩

/-- What is skipped is dropped and counted, and the wait goes on behind it. -/
theorem awaitUntil_of_skips (h : Skips wanted sim skipped) {limit delivered : Nat}
    (hbudget : skipped.length ≤ limit - delivered) :
    awaitUntil wanted { limit, delivered } sim =
      let rest := awaitUntil wanted { limit, delivered := delivered + skipped.length }
        (asked skipped.length sim)
      { rest with trace := skipped.map .skipping ++ rest.trace } := by
  induction skipped generalizing sim delivered with
  | nil => rfl
  | cons m skipped ih =>
    obtain ⟨hm, hfirst, hrest⟩ := skips_cons_iff.mp h
    rw [List.length_cons] at hbudget
    have hnext : awaitNext { limit, delivered } sim =
        { outcome := .ok (.message m), cursor := { limit, delivered := delivered + 1 },
          sim := (next sim).2 } :=
      awaitNext_of_next (by dsimp only; omega) (Prod.ext hfirst rfl)
    have hcount : delivered + 1 + skipped.length = delivered + (m :: skipped).length := by
      rw [List.length_cons]
      omega
    rw [awaitUntil_of_unwanted (congrArg Waited.outcome hnext) hm, hnext]
    dsimp only
    rw [ih hrest (by omega), hcount]
    rfl

variable {c : Cursor}

/-- The request that ends the wait is an ordinary one. -/
theorem awaitUntil_eq_awaitNext (h : Skips wanted sim skipped)
    (hbudget : skipped.length ≤ c.limit - c.delivered) {last : Waited σ}
    (hlast : awaitNext { c with delivered := c.delivered + skipped.length }
      (asked skipped.length sim) = last)
    (hends : ∀ m, last.outcome = .ok (.message m) → wanted m = true) :
    c.awaitUntil wanted sim = { last with trace := skipped.map .skipping } := by
  have htrace : last.trace = [] := hlast ▸ trace_awaitNext _ _
  rw [awaitUntil_of_skips h hbudget, awaitUntil_of_wanted (hlast ▸ hends), hlast]
  dsimp only
  rw [htrace, List.append_nil]

theorem Skips.recorded (h : Skips wanted sim skipped) :
    Skips wanted ({ sim } : Recorded σ) skipped :=
  ⟨h.unwanted, (answers_recorded skipped.length _).trans h.answers⟩

theorem Skips.not_mem_timeout (h : Skips wanted sim skipped) (time : Instant) :
    some (.timeout time) ∉ Simulator.answers skipped.length sim := by
  rw [h.answers]
  simp

/-! The three ways for a wait to end, with all requests that it made on record. -/

theorem awaitUntil_found (h : Skips wanted sim skipped) {d : Delivery}
    (hd : (next (asked skipped.length sim)).1 = some d) (hends : d.endsWait wanted = true)
    (hlimit : c.delivered + (skipped.length + 1) ≤ c.limit) :
    c.awaitUntil wanted ({ sim } : Recorded σ) =
      { outcome := .ok d
        cursor := { c with delivered := c.delivered + (skipped.length + 1) }
        sim := recorded (skipped.length + 1) sim
        trace := skipped.map .skipping } := by
  rw [← asked_eq_recorded, asked_succ]
  refine awaitUntil_eq_awaitNext h.recorded (by omega)
    (awaitNext_of_next ?_ (Prod.ext ((next_asked_recorded _ sim).trans hd) rfl)) (fun m hm => ?_)
  · dsimp only
    omega
  · obtain rfl := Except.ok.inj hm
    exact hends

theorem awaitUntil_limited (h : Skips wanted sim skipped)
    (hspent : skipped.length = c.limit - c.delivered) :
    c.awaitUntil wanted ({ sim } : Recorded σ) =
      { outcome := .error (.limitReached c.limit (now (asked skipped.length sim)))
        cursor := { c with delivered := max c.delivered c.limit }
        sim := recorded skipped.length sim
        trace := skipped.map .skipping } := by
  have hdelivered : max c.delivered c.limit = c.delivered + skipped.length := by omega
  have hlimit : c.limit ≤ c.delivered + skipped.length := by omega
  let spent : Cursor := { c with delivered := c.delivered + skipped.length }
  have hlast : spent.awaitNext (asked skipped.length ({ sim } : Recorded σ)) =
      { outcome := .error (.limitReached c.limit (now (asked skipped.length sim)))
        cursor := spent
        sim := recorded skipped.length sim } := by
    rw [asked_eq_recorded]
    exact awaitNext_of_limit hlimit _
  rw [hdelivered]
  exact awaitUntil_eq_awaitNext h.recorded (Nat.le_of_eq hspent) hlast (fun m hm => by cases hm)

theorem awaitUntil_stalled (h : Skips wanted sim skipped)
    (hbudget : skipped.length < c.limit - c.delivered)
    (hnone : (next (asked skipped.length sim)).1 = none) :
    c.awaitUntil wanted ({ sim } : Recorded σ) =
      { outcome := .error (.stalled (now (asked (skipped.length + 1) sim)))
        cursor := { c with delivered := c.delivered + skipped.length }
        sim := recorded (skipped.length + 1) sim
        trace := skipped.map .skipping } := by
  have hlast : next (asked skipped.length ({ sim } : Recorded σ)) =
      (none, recorded (skipped.length + 1) sim) := by
    rw [← asked_eq_recorded, asked_succ]
    exact Prod.ext ((next_asked_recorded _ sim).trans hnone) rfl
  refine awaitUntil_eq_awaitNext h.recorded (Nat.le_of_lt hbudget)
    (awaitNext_of_none ?_ hlast) (fun m hm => ?_)
  · dsimp only
    omega
  · cases hm

/-- However a wait ends, it made no more requests than it may, and ended with a timeout if there was
one among the answers. -/
theorem exists_recorded_awaitUntil (c : Cursor) (wanted : Message → Bool) (sim : σ) :
    ∃ n ≤ c.limit - c.delivered,
      (c.awaitUntil wanted ({ sim } : Recorded σ)).sim = recorded n sim ∧
      ∀ time, some (.timeout time) ∈ Simulator.answers n sim →
        (c.awaitUntil wanted ({ sim } : Recorded σ)).outcome = .ok (.timeout time) := by
  obtain ⟨skipped, hskips, hspent | ⟨hbudget, hends⟩⟩ :=
    exists_skips wanted (c.limit - c.delivered) sim
  · rw [awaitUntil_limited hskips hspent]
    exact ⟨skipped.length, Nat.le_of_eq hspent, rfl, fun time hmem =>
      absurd hmem (hskips.not_mem_timeout time)⟩
  · refine ⟨skipped.length + 1, hbudget, ?_⟩
    rw [answers_succ]
    cases hlast : (next (asked skipped.length sim)).1 with
    | none =>
      rw [awaitUntil_stalled hskips hbudget hlast]
      refine ⟨rfl, fun time hmem => ?_⟩
      rcases List.mem_append.mp hmem with hmem | hmem
      · exact absurd hmem (hskips.not_mem_timeout time)
      · cases List.mem_singleton.mp hmem
    | some d =>
      rw [awaitUntil_found hskips hlast (hends d hlast) (by omega)]
      refine ⟨rfl, fun time hmem => ?_⟩
      rcases List.mem_append.mp hmem with hmem | hmem
      · exact absurd hmem (hskips.not_mem_timeout time)
      · obtain rfl := Option.some.inj (List.mem_singleton.mp hmem)
        rfl

/-- How the cursor `c` waits for a wanted message. Every request that it makes is on record with its
answer; what it skips is dropped, and reported. -/
structure FindsFirst (c : Cursor) (wanted : Message → Bool) (sim : σ) : Prop where
  /-- To record requests is to change nothing. -/
  observed : (c.awaitUntil wanted ({ sim } : Recorded σ)).map Recorded.sim = c.awaitUntil wanted sim
  found : ∀ skipped d, Skips wanted sim skipped → (next (asked skipped.length sim)).1 = some d →
    d.endsWait wanted = true → c.delivered + (skipped.length + 1) ≤ c.limit →
    c.awaitUntil wanted ({ sim } : Recorded σ) =
      { outcome := .ok d
        cursor := { c with delivered := c.delivered + (skipped.length + 1) }
        sim := recorded (skipped.length + 1) sim
        trace := skipped.map .skipping }
  limited : ∀ skipped, Skips wanted sim skipped → skipped.length = c.limit - c.delivered →
    c.awaitUntil wanted ({ sim } : Recorded σ) =
      { outcome := .error (.limitReached c.limit (now (asked skipped.length sim)))
        cursor := { c with delivered := max c.delivered c.limit }
        sim := recorded skipped.length sim
        trace := skipped.map .skipping }
  stalled : ∀ skipped, Skips wanted sim skipped → skipped.length < c.limit - c.delivered →
    (next (asked skipped.length sim)).1 = none →
    c.awaitUntil wanted ({ sim } : Recorded σ) =
      { outcome := .error (.stalled (now (asked (skipped.length + 1) sim)))
        cursor := { c with delivered := c.delivered + skipped.length }
        sim := recorded (skipped.length + 1) sim
        trace := skipped.map .skipping }
  /-- One of the three cases is there, whatever the simulation answers. -/
  exhaustive : ∃ skipped, Skips wanted sim skipped ∧ (skipped.length = c.limit - c.delivered ∨
    skipped.length < c.limit - c.delivered ∧
      ∀ d, (next (asked skipped.length sim)).1 = some d → d.endsWait wanted = true)
  bounded : (c.awaitUntil wanted ({ sim } : Recorded σ)).sim.answers.length ≤ c.limit - c.delivered
  /-- No timeout is skipped. -/
  timeout : ∀ time, some (.timeout time) ∈ (c.awaitUntil wanted ({ sim } : Recorded σ)).sim.answers →
    (c.awaitUntil wanted sim).outcome = .ok (.timeout time)

/-- Every wait for a wanted message finds the first delivery that ends it, and accounts for all
requests that it makes. -/
theorem awaitUntil_findsFirst (c : Cursor) (wanted : Message → Bool) (sim : σ) :
    c.FindsFirst wanted sim := by
  have hobserved := (c.awaitUntil_map Recorded.hom wanted ({ sim } : Recorded σ)).symm
  obtain ⟨n, hn, hsim, htimeout⟩ := exists_recorded_awaitUntil c wanted sim
  constructor
  case observed => exact hobserved
  case found => exact fun skipped d hskips hd hends hlimit => awaitUntil_found hskips hd hends hlimit
  case limited => exact fun skipped hskips hspent => awaitUntil_limited hskips hspent
  case stalled =>
    exact fun skipped hskips hbudget hnone => awaitUntil_stalled hskips hbudget hnone
  case exhaustive => exact exists_skips wanted (c.limit - c.delivered) sim
  case bounded =>
    rw [hsim]
    exact Nat.le_trans (Nat.le_of_eq (length_answers n sim)) hn
  case timeout =>
    intro time hmem
    rw [hsim] at hmem
    exact (congrArg Waited.outcome hobserved).symm.trans (htimeout time hmem)

end Cursor

end MoteBench
