import MoteBench.Trace

/-! What a test needs of a simulation, and the waits that a test makes on it. -/
namespace MoteBench

/-- The test's one timeout is delivered among the messages. -/
inductive Delivery where
  | message (m : Message)
  | timeout (time : Instant)
  deriving DecidableEq, Repr

/-- A simulation with nodes `ν` that refuses requests for reasons `ε`. A request answers with the
next state also when it is refused. -/
class Simulator (σ : Type) (ν ε : outParam Type) where
  now : σ → Instant
  seed : σ → UInt64
  armTimeout : σ → Span → Except ε Unit × σ × Trace
  /-- Asks for a message of the script's own, no earlier than after the given delay. -/
  generate : σ → Span → String → Except ε Unit × σ × Trace
  next : σ → Option Delivery × σ
  nodes : σ → List ν
  withNodes : σ → List ν → σ

/-- Why a wait ends without a delivery. -/
inductive WaitError where
  | stalled (time : Instant)
  | limitReached (limit : Nat) (time : Instant)
  deriving DecidableEq, Repr

def WaitError.message : WaitError → String
  | .stalled time => s!"simulation stalled at {time.render} without a verdict"
  | .limitReached limit time => s!"event limit of {limit} reached at {time.render}"

/-- How many deliveries a test has taken, and how many it takes at most. -/
structure Cursor where
  limit : Nat := 1000000
  delivered : Nat := 0
  deriving DecidableEq, Repr

/-- How a wait ended, with cursor and simulation after it. -/
structure Waited (σ : Type) where
  outcome : Except WaitError Delivery
  cursor : Cursor
  sim : σ
  trace : Trace := []

namespace Cursor

variable {σ ν ε : Type} [Simulator σ ν ε]

def remaining (c : Cursor) : Nat := c.limit - c.delivered

/-- Takes one delivery. A simulation is not asked once the limit is reached. -/
def awaitNext (c : Cursor) (sim : σ) : Waited σ :=
  if c.limit ≤ c.delivered then
    { outcome := .error (.limitReached c.limit (Simulator.now sim)), cursor := c, sim }
  else match Simulator.next sim with
    | (none, sim) => { outcome := .error (.stalled (Simulator.now sim)), cursor := c, sim }
    | (some d, sim) =>
      { outcome := .ok d, cursor := { c with delivered := c.delivered + 1 }, sim }

/-- Every delivery is counted. -/
theorem cursor_awaitNext {c : Cursor} {sim : σ} {d : Delivery}
    (h : (c.awaitNext sim).outcome = .ok d) :
    c.delivered < c.limit ∧
      (c.awaitNext sim).cursor = { c with delivered := c.delivered + 1 } := by
  unfold awaitNext at h ⊢
  split
  · simp_all
  · split <;> simp_all

/-- Takes deliveries up to the first that is a timeout or a wanted message. Messages before it are
dropped, but they count. -/
def awaitUntil (wanted : Message → Bool) (c : Cursor) (sim : σ) : Waited σ :=
  let first := c.awaitNext sim
  match h : first.outcome with
  | .ok (.message m) =>
    if wanted m then first
    else
      have := cursor_awaitNext h
      let rest := awaitUntil wanted first.cursor first.sim
      { rest with trace := .skipping m :: rest.trace }
  | _ => first
termination_by c.remaining
decreasing_by
  simp only [remaining, this.2]
  omega

theorem cursor_awaitUntil {wanted : Message → Bool} {c : Cursor} {sim : σ} {d : Delivery}
    (h : (c.awaitUntil wanted sim).outcome = .ok d) :
    (c.awaitUntil wanted sim).cursor.limit = c.limit ∧
      c.delivered < (c.awaitUntil wanted sim).cursor.delivered ∧
      (c.awaitUntil wanted sim).cursor.delivered ≤ c.limit := by
  fun_induction awaitUntil wanted c sim with
  | case1 c sim first m hm hw =>
    have := cursor_awaitNext (hm : (c.awaitNext sim).outcome = _)
    grind
  | case2 c sim first m hm hw _ rest ih =>
    have := cursor_awaitNext (hm : (c.awaitNext sim).outcome = _)
    have := ih h
    grind
  | case3 c sim first hm =>
    have := cursor_awaitNext (h : (c.awaitNext sim).outcome = _)
    grind

end Cursor

end MoteBench
