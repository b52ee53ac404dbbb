import Mathlib.Order.Lattice
import MoteBench.Proofs.Port.Draws
import MoteBench.Run

/-!
The schedule of a reset cycle. Phases with drawn ports and phases with neutral ports take turns, and
each lasts as long as the cycle says.
-/
namespace MoteBench

open MoteBench.Random Memory Controller

namespace CyclePhase

/-- The phase after `k` changes. -/
def nth (k : Nat) : CyclePhase := if k % 2 = 0 then .configured else .parked

theorem nth_of_even {k : Nat} (h : k % 2 = 0) : nth k = .configured := if_pos h

theorem nth_of_odd {k : Nat} (h : k % 2 = 1) : nth k = .parked := if_neg (by omega)

end CyclePhase

namespace ResetCycle

def span (cycle : ResetCycle) : CyclePhase → Span
  | .configured => cycle.runPhase
  | .parked => cycle.resetPhase

/-- When the `k`-th change of phase is due, in microseconds from the start. -/
def boundary (cycle : ResetCycle) (k : Nat) : Nat :=
  k / 2 * (cycle.runPhase.micros + cycle.resetPhase.micros) + k % 2 * cycle.runPhase.micros

@[simp] theorem boundary_zero (cycle : ResetCycle) : cycle.boundary 0 = 0 := by simp [boundary]

/-- From one change to the next it takes the phase between them. -/
theorem boundary_succ (cycle : ResetCycle) (k : Nat) :
    cycle.boundary (k + 1) = cycle.boundary k + (cycle.span (.nth k)).micros := by
  rcases Nat.mod_two_eq_zero_or_one k with h | h
  · have hhalf : (k + 1) / 2 = k / 2 := by omega
    have hodd : (k + 1) % 2 = 1 := by omega
    rw [CyclePhase.nth_of_even h, boundary, boundary, hhalf, hodd, h, Nat.zero_mul, Nat.one_mul]
    rfl
  · have hhalf : (k + 1) / 2 = k / 2 + 1 := by omega
    have heven : (k + 1) % 2 = 0 := by omega
    rw [CyclePhase.nth_of_odd h, boundary, boundary, hhalf, heven, h, Nat.succ_mul, Nat.zero_mul,
      Nat.one_mul, Nat.add_zero, ← Nat.add_assoc]
    rfl

end ResetCycle

variable {G : Type} [WordSource G]

/-- The bindings that the `k`-th change of phase makes, if those before it used as many ports as they
needed. -/
structure Plan.Turns (plan : Plan) (ports : Port.Allocator G) (k : Nat) (bindings : List Binding) :
    Prop where
  parked : k % 2 = 1 → bindings = neutralPorts plan.parameters
  configured : k % 2 = 0 → Configures plan.parameters
    ((ports.draws (k / 2 * plan.drawnCount)).2.draws plan.drawnCount).1 bindings

namespace ResetCycle

/-- What a run leaves on record that has changed its phase `n` times, each time when it was due. -/
structure Keeps (cycle : ResetCycle) (plan : Plan) (ports : Port.Allocator G)
    (broadcasts : List BroadcastRecord) (n : Nat) : Prop where
  length : broadcasts.length = n + 1
  time : ∀ k record, broadcasts[k]? = some record → record.time.micros = cycle.boundary k
  bindings : ∀ k record, broadcasts[k]? = some record → plan.Turns ports k record.bindings

variable {cycle : ResetCycle} {plan : Plan} {ports : Port.Allocator G}

theorem keeps_singleton {record : BroadcastRecord} (htime : record.time = .zero)
    (hturns : plan.Turns ports 0 record.bindings) : cycle.Keeps plan ports [record] 0 := by
  have hzero {k : Nat} {other : BroadcastRecord} (h : [record][k]? = some other) :
      k = 0 ∧ record = other := by
    cases k with
    | zero => exact ⟨rfl, Option.some.inj h⟩
    | succ k => cases h
  refine ⟨rfl, fun k other h => ?_, fun k other h => ?_⟩ <;> obtain ⟨rfl, rfl⟩ := hzero h
  · rw [htime, boundary_zero]
    rfl
  · exact hturns

theorem Keeps.push {broadcasts : List BroadcastRecord} {n : Nat}
    (h : cycle.Keeps plan ports broadcasts n) {record : BroadcastRecord}
    (htime : record.time.micros = cycle.boundary (n + 1))
    (hturns : plan.Turns ports (n + 1) record.bindings) :
    cycle.Keeps plan ports (broadcasts ++ [record]) (n + 1) := by
  have hcases {k : Nat} {other : BroadcastRecord} (hk : (broadcasts ++ [record])[k]? = some other) :
      broadcasts[k]? = some other ∨ k = n + 1 ∧ record = other := by
    rw [List.getElem?_append, h.length] at hk
    split at hk
    · exact .inl hk
    · obtain ⟨hlt, heq⟩ := List.getElem?_eq_some_iff.mp hk
      simp only [List.length_singleton] at hlt
      exact .inr ⟨by omega, by simpa using heq⟩
  refine ⟨by rw [List.length_append, h.length]; rfl, fun k other hk => ?_, fun k other hk => ?_⟩ <;>
    rcases hcases hk with hk | ⟨rfl, rfl⟩
  · exact h.time k other hk
  · exact htime
  · exact h.bindings k other hk
  · exact hturns

end ResetCycle

end MoteBench
