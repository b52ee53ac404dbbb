import MoteBench.Proofs.Broadcast
import MoteBench.Proofs.Instant
import MoteBench.World

/-!
All that can be asked of a world, one request after another. Nothing on the agenda of a world that
came about in this way is due before the clock.
-/
namespace MoteBench.World

open Memory Agenda

inductive Request where
  | addMote (mote : Mote)
  | schedule (m : Message)
  | print (time : Instant) (id : MoteId) (text : String)
  | armTimeout (after : Span)
  | generate (delay : Span) (payload : String)
  | next
  | broadcast (mode : AccessMode) (bindings : List Binding)

inductive Response where
  | done
  | refused (cause : Refusal)
  | delivery (d? : Option Delivery)
  deriving DecidableEq, Repr

/-- The world after a request that may be refused, and whether it was. -/
def respond (w : World) : Except Refusal World → Response × World
  | .ok w => (.done, w)
  | .error cause => (.refused cause, w)

def serve (w : World) : Request → Response × World
  | .addMote mote => w.respond (w.addMote mote)
  | .schedule m => w.respond (w.schedule m)
  | .print time id text => w.respond (w.print time id text)
  | .armTimeout after => w.respond (w.armTimeout after)
  | .generate delay payload => (.done, w.generate delay payload)
  | .next => (.delivery w.next.1, w.next.2)
  | .broadcast mode bindings => (.done, { w with motes := (broadcastAll mode bindings w.motes).1 })

def serveAll (w : World) : List Request → List Response × World
  | [] => ([], w)
  | q :: requests =>
    let (response, w) := w.serve q
    let (responses, w) := w.serveAll requests
    (response :: responses, w)

theorem serveAll_append (w : World) (front back : List Request) :
    w.serveAll (front ++ back) =
      ((w.serveAll front).1 ++ ((w.serveAll front).2.serveAll back).1,
        ((w.serveAll front).2.serveAll back).2) := by
  induction front generalizing w with
  | nil => rfl
  | cons q front ih => simp only [List.cons_append, serveAll, ih]

/-- Worlds that come about from an empty one, or from one of fresh motes. -/
inductive Reachable : World → Prop where
  | start (seed : UInt64) (count : Nat) (h : count < UInt32.size) : Reachable (withMotes seed count)
  | serve {w : World} (h : Reachable w) (q : Request) : Reachable (w.serve q).2

/-- Nothing is overdue. -/
def Timely (w : World) : Prop := ∀ i ∈ w.agenda.toList, w.now ≤ i.due

theorem mem_toList_push {a : Agenda Pending} {due : Instant} {p : Pending} {i : Item Pending} :
    i ∈ (a.push due p).toList ↔ i ∈ a.toList ∨ i = ⟨due, a.next, p⟩ := by
  rw [toList_push, List.mem_append, List.mem_cons, List.mem_filter, List.mem_filter]
  by_cases h : i.due ≤ due <;> simp [h, or_comm]

theorem sequence_lt_next {a : Agenda Pending} {i : Item Pending} (h : i ∈ a.toList) :
    i.sequence < a.next :=
  a.fresh i (a.toList_perm.mem_iff.mp h)

theorem Timely.put {w : World} (h : w.Timely) {due : Instant} (hdue : w.now ≤ due) (p : Pending) :
    (w.put due p).Timely := by
  intro i hi
  rcases mem_toList_push.mp hi with hi | rfl
  · exact h i hi
  · exact hdue

/-! What a request does to a world, all of it or, if it is refused, nothing. -/

theorem schedule_of_knows {w : World} {m : Message} (h : w.knows m.source = true) :
    w.schedule m = .ok (w.put (max m.time w.now) (.message m.source m.text)) := by
  unfold schedule
  rw [h]
  split
  · cases ‹true = false›
  · rfl

/-- Only messages of motes are ever refused. -/
theorem schedule_of_not_knows {w : World} {m : Message} (h : w.knows m.source = false) :
    ∃ id, m.source = .mote id ∧ w.schedule m = .error (.unknownMote id) := by
  unfold schedule
  cases hs : m.source with
  | script => simp [hs, knows] at h
  | mote id =>
    rw [hs] at h
    exact ⟨id, rfl, by rw [h]⟩

theorem respond_schedule (w : World) (m : Message) :
    (w.respond (w.schedule m)).2 = w ∨
      (w.respond (w.schedule m)).2 =
        w.put (max m.time w.now) (.message m.source m.text) := by
  cases hk : w.knows m.source with
  | true =>
    rw [schedule_of_knows hk]
    exact .inr rfl
  | false =>
    obtain ⟨id, -, hrefused⟩ := schedule_of_not_knows hk
    rw [hrefused]
    exact .inl rfl

theorem armTimeout_eq_ok {w w' : World} {after : Span} (h : w.armTimeout after = .ok w') :
    w' = { w.put (w.now + after) .timeout with timeout := .armed (w.now + after) } := by
  unfold armTimeout at h
  dsimp only at h
  split at h
  · cases h
  · split at h
    · cases h
    · exact (Except.ok.inj h).symm
  · exact (Except.ok.inj h).symm

theorem respond_armTimeout (w : World) (after : Span) :
    (w.respond (w.armTimeout after)).2 = w ∨
      (w.respond (w.armTimeout after)).2 =
        { w.put (w.now + after) .timeout with timeout := .armed (w.now + after) } := by
  cases ha : w.armTimeout after with
  | error cause => exact .inl rfl
  | ok w' => exact .inr (armTimeout_eq_ok ha)

theorem armTimeout_of_disarmed {w : World} (h : w.timeout = .disarmed) (after : Span) :
    w.armTimeout after =
      .ok { w.put (w.now + after) .timeout with timeout := .armed (w.now + after) } := by
  rw [armTimeout, h]

theorem addMote_eq_ok {w w' : World} {mote : Mote} (h : w.addMote mote = .ok w') :
    w' = { w with motes := w.motes ++ [mote] } := by
  unfold addMote at h
  split at h
  · cases h
  · exact (Except.ok.inj h).symm

theorem respond_addMote (w : World) (mote : Mote) :
    (w.respond (w.addMote mote)).2 = w ∨
      (w.respond (w.addMote mote)).2 = { w with motes := w.motes ++ [mote] } := by
  cases ha : w.addMote mote with
  | error cause => exact .inl rfl
  | ok w' => exact .inr (addMote_eq_ok ha)

/-! Taking the next delivery, by what stands first on the agenda. -/

theorem pop?_of_toList {a : Agenda Pending} {i : Item Pending} {rest : List (Item Pending)}
    (h : a.toList = i :: rest) : ∃ b, a.pop? = some (i, b) ∧ b.toList = rest := by
  cases hp : a.pop? with
  | none => simp [pop?_eq_none_iff.mp hp] at h
  | some popped =>
    obtain ⟨j, b⟩ := popped
    obtain ⟨rfl, hrest⟩ := List.cons.inj ((toList_of_pop? hp).symm.trans h)
    exact ⟨b, rfl, hrest⟩

/-- The world once an item was taken off its agenda; `rest` is what remains there. -/
def took (w : World) (i : Item Pending) (rest : Agenda Pending) : World :=
  { w with agenda := rest, now := max w.now i.due }

theorem next_of_nil {w : World} (h : w.agenda.toList = []) : w.next = (none, w) := by
  rw [next]
  split
  · rfl
  · rename_i hp
    simp [pop?_eq_none_iff.mpr h] at hp

theorem next_of_cons {w : World} {i : Item Pending} {rest : List (Item Pending)}
    (h : w.agenda.toList = i :: rest) : ∃ b, b.toList = rest ∧ w.next = match i.payload with
      | .message source text => (some (.message ⟨max w.now i.due, source, text⟩), w.took i b)
      | .timeout =>
        if w.timeout = .armed i.due then
          (some (.timeout (max w.now i.due)), { w.took i b with timeout := .fired })
        else (w.took i b).next := by
  obtain ⟨b, hb, hrest⟩ := pop?_of_toList h
  refine ⟨b, hrest, ?_⟩
  rw [next]
  split
  · rename_i hp
    simp [hb] at hp
  · rename_i j b' hp
    obtain ⟨rfl, rfl⟩ := Prod.mk.inj (Option.some.inj (hb.symm.trans hp))
    rfl

/-- What the next delivery comes to, by cases: there is nothing left, or a message, or the timeout,
or a timeout that is passed over. -/
theorem next_induction {P : World → Option Delivery × World → Prop}
    (empty : ∀ w, w.agenda.toList = [] → P w (none, w))
    (message : ∀ w i b source text, w.agenda.toList = i :: b.toList →
      i.payload = .message source text →
      P w (some (.message ⟨max w.now i.due, source, text⟩), w.took i b))
    (timeout : ∀ w i b, w.agenda.toList = i :: b.toList → i.payload = .timeout →
      w.timeout = .armed i.due →
      P w (some (.timeout (max w.now i.due)), { w.took i b with timeout := .fired }))
    (passed : ∀ w i b, w.agenda.toList = i :: b.toList → i.payload = .timeout →
      w.timeout ≠ .armed i.due → P (w.took i b) (w.took i b).next → P w (w.took i b).next)
    (w : World) : P w w.next := by
  cases hl : w.agenda.toList with
  | nil =>
    rw [next_of_nil hl]
    exact empty w hl
  | cons i rest =>
    obtain ⟨b, rfl, hnext⟩ := next_of_cons hl
    have hshorter : b.toList.length < w.agenda.toList.length := by simp [hl]
    rw [hnext]
    cases hp : i.payload with
    | message source text => exact message w i b source text hl hp
    | timeout =>
      dsimp only
      split
      · rename_i harmed
        exact timeout w i b hl hp harmed
      · rename_i hother
        exact passed w i b hl hp hother (next_induction empty message timeout passed (w.took i b))
termination_by w.agenda.toList.length

theorem motes_next (w : World) : w.next.2.motes = w.motes :=
  next_induction (P := fun w r => r.2.motes = w.motes) (fun _ _ => rfl) (fun _ _ _ _ _ _ _ => rfl)
    (fun _ _ _ _ _ _ => rfl) (fun _ _ _ _ _ _ ih => ih) w

theorem seed_next (w : World) : w.next.2.seed = w.seed :=
  next_induction (P := fun w r => r.2.seed = w.seed) (fun _ _ => rfl) (fun _ _ _ _ _ _ _ => rfl)
    (fun _ _ _ _ _ _ => rfl) (fun _ _ _ _ _ _ ih => ih) w

theorem pairwise_due (w : World) : w.agenda.toList.Pairwise (·.due ≤ ·.due) := by
  apply w.agenda.pairwise_toList.imp
  intro i j h
  rcases h with hlt | ⟨heq, -⟩
  · exact le_of_lt hlt
  · exact le_of_eq heq

theorem Timely.took {w : World} (h : w.Timely) {i : Item Pending} {b : Agenda Pending}
    (hi : w.agenda.toList = i :: b.toList) : (w.took i b).Timely ∧ (w.took i b).now = i.due := by
  have hdue : max w.now i.due = i.due := max_eq_right (h i (by simp [hi]))
  have hsorted := w.pairwise_due
  rw [hi] at hsorted
  refine ⟨fun j hj => ?_, hdue⟩
  change max w.now i.due ≤ j.due
  rw [hdue]
  exact (List.pairwise_cons.mp hsorted).1 j hj

/-- To take the next delivery leaves nothing overdue. -/
theorem Timely.next {w : World} (h : w.Timely) : w.next.2.Timely := by
  refine next_induction (P := fun w r => w.Timely → r.2.Timely) ?empty ?message ?timeout ?passed w h
  case empty => exact fun w hl h => h
  case message => exact fun w i b source text hi hp h => (h.took hi).1
  case timeout => exact fun w i b hi hp harmed h => (h.took hi).1
  case passed => exact fun w i b hi hp hother ih h => ih (h.took hi).1

theorem Timely.schedule {w : World} (h : w.Timely) (m : Message) :
    (w.respond (w.schedule m)).2.Timely := by
  rcases w.respond_schedule m with heq | heq <;> rw [heq]
  · exact h
  · exact h.put (le_max_right _ _) _

theorem Timely.serve {w : World} (h : w.Timely) (q : Request) : (w.serve q).2.Timely := by
  cases q with
  | addMote mote =>
    rw [World.serve]
    rcases w.respond_addMote mote with heq | heq <;> rw [heq] <;> exact h
  | schedule m => exact h.schedule m
  | print time id text => exact h.schedule ⟨time, .mote id, text⟩
  | armTimeout after =>
    rw [World.serve]
    rcases w.respond_armTimeout after with heq | heq <;> rw [heq]
    · exact h
    · exact h.put (Instant.le_add w.now after) .timeout
  | generate delay payload =>
    exact h.put (le_trans (Instant.le_add w.now delay) (le_max_left _ _)) _
  | next => exact h.next
  | broadcast mode bindings => exact h

theorem Timely.serveAll {w : World} (h : w.Timely) (requests : List Request) :
    (w.serveAll requests).2.Timely := by
  induction requests generalizing w with
  | nil => exact h
  | cons q requests ih => exact ih (h.serve q)

theorem timely_withMotes (seed : UInt64) (count : Nat) : (withMotes seed count).Timely := by
  intro i hi
  simp [withMotes, toList, Heap.items] at hi

theorem Reachable.timely {w : World} (h : w.Reachable) : w.Timely := by
  induction h with
  | start seed count _ => exact timely_withMotes seed count
  | serve _ q ih => exact ih.serve q

end MoteBench.World
