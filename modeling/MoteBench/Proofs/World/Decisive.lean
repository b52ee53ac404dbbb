import Mathlib.Data.List.TakeWhile
import MoteBench.Proofs.Controller.History
import MoteBench.Proofs.World.Timeouts

/-!
The entry on the agenda of a world that will end a run: the first message that decides, or else the
timeout. Cues that are asked for meanwhile do not change which one it is.
-/
namespace MoteBench

open Memory Controller

/-- Whether a run ends with an entry once it is delivered. -/
def Plan.endsWith (plan : Plan) : Pending → Bool
  | .message _ text => plan.decides text
  | .timeout => true

def Plan.verdictOf (plan : Plan) (due : Instant) : Pending → Verdict
  | .message source text => verdictOn plan ⟨due, source, text⟩
  | .timeout => verdictAt plan due

def Pending.delivery (due : Instant) : Pending → Delivery
  | .message source text => .message ⟨due, source, text⟩
  | .timeout => .timeout due

namespace Docket

/-- Before the entry that ends a run of `plan` there are only messages of no consequence. Without a
reset cycle there are `count` of them. -/
structure LeadsTo (d : Docket) (plan : Plan) (due : Instant) (p : Pending) (count : Nat) :
    Prop where
  ends : plan.endsWith p
  armed : ∃ deadline, d.timeout = .armed deadline ∧
    ∀ e ∈ d.entries, e.2 = .timeout → e.1 = deadline
  first : ∃ front back, d.entries = front ++ (due, p) :: back ∧
    (∀ e ∈ front, plan.endsWith e.2 = false) ∧ (plan.resetCycle = none → front.length = count)

variable {d : Docket} {plan : Plan} {due : Instant} {p : Pending} {count : Nat}

/-- An entry of no consequence may go anywhere. -/
theorem exists_orderedInsert {e x : Instant × Pending} {front back : List (Instant × Pending)}
    (hx : plan.endsWith x.2 = false) (hfront : ∀ e ∈ front, plan.endsWith e.2 = false) :
    ∃ front' back', (front ++ e :: back).orderedInsert (·.1 < ·.1) x = front' ++ e :: back' ∧
      ∀ e ∈ front', plan.endsWith e.2 = false := by
  induction front with
  | nil =>
    rw [List.nil_append, List.orderedInsert_cons]
    split
    · exact ⟨[x], back, rfl, by simpa using hx⟩
    · exact ⟨[], back.orderedInsert (·.1 < ·.1) x, rfl, by simp⟩
  | cons f front ih =>
    obtain ⟨hf, hfront⟩ := List.forall_mem_cons.mp hfront
    rw [List.cons_append, List.orderedInsert_cons]
    split
    · exact ⟨x :: f :: front, back, rfl, by simpa [hx, hf] using hfront⟩
    · obtain ⟨front', back', heq, hfront'⟩ := ih hfront
      exact ⟨f :: front', back', by rw [heq]; rfl, by simpa [hf] using hfront'⟩

theorem LeadsTo.generate (h : d.LeadsTo plan due p count) {cycle : ResetCycle}
    (hcycle : cycle ∈ plan.resetCycle) {payload : String} (hp : plan.decides payload = false)
    (delay : Span) : (d.generate delay payload).LeadsTo plan due p count := by
  obtain ⟨hends, ⟨deadline, harmed, honly⟩, front, back, heq, hfront, -⟩ := h
  refine ⟨hends, ⟨deadline, harmed, fun e he ht => ?_⟩, ?_⟩
  · rcases mem_entries_put.mp he with rfl | he
    · cases ht
    · exact honly e he ht
  · obtain ⟨front', back', heq', hfront'⟩ := exists_orderedInsert
      (x := (max (d.now + delay) d.lastGenerated, .message .script payload)) hp hfront
    refine ⟨front', back', ?_, hfront', fun hnone => ?_⟩
    · rw [← heq', ← heq]
      rfl
    · rw [hnone] at hcycle
      cases hcycle

/-- The next delivery is the one that ends the run, or a message of no consequence before it. -/
theorem LeadsTo.take (h : d.LeadsTo plan due p count) :
    (d.take d.entries).1 = some (p.delivery due) ∧ (d.take d.entries).2.now = due ∧
        (plan.resetCycle = none → count = 0) ∨
      ∃ m count', (d.take d.entries).1 = some (.message m) ∧ plan.decides m.text = false ∧
        (d.take d.entries).2.LeadsTo plan due p count' ∧
        (plan.resetCycle = none → count = count' + 1) := by
  obtain ⟨hends, ⟨deadline, harmed, honly⟩, front, back, heq, hfront, hcount⟩ := h
  cases front with
  | nil =>
    rw [List.nil_append] at heq
    left
    rw [heq]
    have hcount' : plan.resetCycle = none → count = 0 := fun hnone => (hcount hnone).symm
    cases p with
    | message source text => exact ⟨rfl, rfl, hcount'⟩
    | timeout =>
      obtain rfl : due = deadline := honly (due, .timeout) (by simp [heq]) rfl
      rw [Docket.take, if_pos harmed]
      exact ⟨rfl, rfl, hcount'⟩
  | cons f front =>
    obtain ⟨hf, hrest⟩ := List.forall_mem_cons.mp hfront
    obtain ⟨time, q⟩ := f
    right
    rw [heq]
    cases q with
    | timeout => cases hf
    | message source text =>
      refine ⟨⟨time, source, text⟩, front.length, rfl, hf, ⟨hends, ⟨deadline, harmed, ?_⟩, ?_⟩, ?_⟩
      · intro e he ht
        exact honly e (by rw [heq]; exact List.mem_cons_of_mem _ he) ht
      · exact ⟨front, back, rfl, hrest, fun _ => rfl⟩
      · exact fun hnone => (hcount hnone).symm

/-- The entry `p` comes up at `due`, and before it only `messages`. -/
structure Comes (d : Docket) (messages : List Message) (due : Instant) (p : Pending) : Prop where
  entries : ∃ back, d.entries = messages.map (·.entry) ++ (due, p) :: back
  timeout : p = .timeout → d.timeout = .armed due

theorem Comes.take_nil (h : d.Comes [] due p) : (d.take d.entries).1 = some (p.delivery due) := by
  obtain ⟨⟨back, heq⟩, htimeout⟩ := h
  rw [heq]
  cases p with
  | message source text => rfl
  | timeout =>
    rw [List.map_nil, List.nil_append, Docket.take, if_pos (htimeout rfl)]
    rfl

theorem Comes.take_cons {m : Message} {messages : List Message}
    (h : d.Comes (m :: messages) due p) :
    (d.take d.entries).1 = some (.message m) ∧ (d.take d.entries).2.now = m.time ∧
      (d.take d.entries).2.Comes messages due p := by
  obtain ⟨⟨back, heq⟩, htimeout⟩ := h
  rw [heq]
  exact ⟨rfl, rfl, ⟨back, rfl⟩, htimeout⟩

end Docket

/-- The entry that ends a run which has `messages` before it and then the timeout. -/
def Plan.decisive (plan : Plan) (deadline : Instant) (messages : List Message) :
    Instant × Pending :=
  ((messages.find? (plan.decides ·.text)).map (·.entry)).getD (deadline, .timeout)

theorem Plan.endsWith_decisive (plan : Plan) (deadline : Instant) (messages : List Message) :
    plan.endsWith (plan.decisive deadline messages).2 := by
  unfold decisive
  cases hm : messages.find? (plan.decides ·.text) with
  | none => rfl
  | some m =>
    have hdecides := List.find?_some hm
    exact hdecides

theorem Plan.deadline_of_decisive {plan : Plan} {deadline : Instant} {messages : List Message}
    (h : (plan.decisive deadline messages).2 = .timeout) :
    (plan.decisive deadline messages).1 = deadline := by
  unfold decisive at h ⊢
  cases hm : messages.find? (plan.decides ·.text) with
  | none => rfl
  | some m =>
    rw [hm] at h
    cases h

/-- The messages that do not decide stand before the entry that does. -/
theorem Plan.exists_decisive (plan : Plan) (deadline : Instant) (messages : List Message) :
    ∃ back, messages.map (·.entry) ++ [(deadline, .timeout)] =
      (messages.takeWhile (¬ plan.decides ·.text)).map (·.entry) ++
        plan.decisive deadline messages :: back := by
  induction messages with
  | nil => exact ⟨[], rfl⟩
  | cons m messages ih =>
    cases hm : plan.decides m.text with
    | true =>
      refine ⟨messages.map (·.entry) ++ [(deadline, .timeout)], ?_⟩
      simp [decisive, hm]
    | false =>
      obtain ⟨back, heq⟩ := ih
      have hrest : plan.decisive deadline (m :: messages) = plan.decisive deadline messages := by
        simp [decisive, hm]
      refine ⟨back, ?_⟩
      rw [hrest, List.map_cons, List.cons_append, heq]
      simp [hm]

namespace World

/-- The pending messages that are due within the budget of a plan. -/
def early (w : World) (plan : Plan) : List Message :=
  w.pending.filter (·.time ≤ w.now + plan.budget)

/-- The message that decides a run of a plan. -/
def decider? (w : World) (plan : Plan) : Option Message :=
  (w.early plan).find? (plan.decides ·.text)

/-- The messages that come up before anything decides. -/
def undecided (w : World) (plan : Plan) : List Message :=
  (w.early plan).takeWhile (¬ plan.decides ·.text)

/-- The entry that ends a run of a plan which starts now. -/
def ending (w : World) (plan : Plan) : Instant × Pending :=
  plan.decisive (w.now + plan.budget) (w.early plan)

theorem undecided_of_mem {w : World} {plan : Plan} {m : Message} (h : m ∈ w.undecided plan) :
    plan.decides m.text = false := by
  simpa using List.mem_takeWhile_imp h

theorem entries_put (w : World) (due : Instant) (p : Pending) :
    (w.put due p).docket.entries = (w.docket.put due p).entries :=
  congrArg Docket.entries (docket_put w due p)

/-- The timeout goes behind the early messages and before all others. -/
theorem entries_armed {w : World} (h : ∀ e ∈ w.docket.entries, e.2 ≠ .timeout) (plan : Plan) :
    ∃ back, (w.put (w.now + plan.budget) .timeout).docket.entries =
      (w.undecided plan).map (·.entry) ++ w.ending plan :: back := by
  obtain ⟨back, heq⟩ := plan.exists_decisive (w.now + plan.budget) (w.early plan)
  refine ⟨back ++ w.docket.entries.filter (¬ ·.1 ≤ w.now + plan.budget), ?_⟩
  have hearly : w.docket.entries.filter (·.1 ≤ w.now + plan.budget) =
      (w.early plan).map (·.entry) := by
    rw [entries_eq_map_pending h, List.filter_map]
    rfl
  have hending : (w.early plan).map (·.entry) ++ [(w.now + plan.budget, .timeout)] =
      (w.undecided plan).map (·.entry) ++ w.ending plan :: back := heq
  rw [entries_put]
  refine (Docket.orderedInsert_eq_filter w.pairwise_entries).trans ?_
  rw [hearly, List.append_cons, hending, List.append_assoc]
  rfl

/-- Once its timeout is armed, a world leads to the first message that decides, or else to the
timeout, which comes behind all messages due at the same time. -/
theorem leadsTo_armed {w : World} (h : ∀ e ∈ w.docket.entries, e.2 ≠ .timeout) (plan : Plan) :
    let deadline := w.now + plan.budget
    let armed : World := { w.put deadline .timeout with timeout := .armed deadline }
    armed.docket.LeadsTo plan (w.ending plan).1 (w.ending plan).2 (w.undecided plan).length := by
  dsimp only
  have hentries := w.entries_put (w.now + plan.budget) .timeout
  refine ⟨plan.endsWith_decisive _ _, ⟨w.now + plan.budget, rfl, fun e he ht => ?_⟩, ?_⟩
  · rcases Docket.mem_entries_put.mp (hentries ▸ he) with rfl | he
    · rfl
    · exact absurd ht (h e he)
  · obtain ⟨back, heq⟩ := entries_armed h plan
    refine ⟨(w.undecided plan).map Message.entry, back, heq, fun e he => ?_, fun _ => List.length_map ..⟩
    obtain ⟨m, hm, rfl⟩ := List.mem_map.mp he
    exact undecided_of_mem hm

/-- The messages that do not decide come up one after the other, and then what ends the run. -/
theorem comes_armed {w : World} (h : ∀ e ∈ w.docket.entries, e.2 ≠ .timeout) (plan : Plan) :
    let deadline := w.now + plan.budget
    let armed : World := { w.put deadline .timeout with timeout := .armed deadline }
    armed.docket.Comes (w.undecided plan) (w.ending plan).1 (w.ending plan).2 := by
  refine ⟨entries_armed h plan, fun htimeout => ?_⟩
  exact congrArg TimeoutState.armed (Plan.deadline_of_decisive htimeout).symm

end World

end MoteBench
