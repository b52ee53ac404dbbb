import Mathlib.Order.Bounds.Basic
import Mathlib.Order.MinMax
import MoteBench.Proofs.World.Delivery

/-!
Messages that a world generates come in turn. However requests interleave, they are delivered in the
order in which they were asked for, each once and as it was asked for, and none later than its own
delay and the messages before it make necessary.
-/
namespace MoteBench

open Memory Agenda

namespace World

/-- What a world is asked to generate, and when. -/
structure Call where
  clock : Instant
  delay : Span
  payload : String
  deriving DecidableEq

/-- The time before which the message that a call asks for must not come; the last instant, if the
clock does not reach that far. -/
def Call.bound (c : Call) : Instant := .ofMicros (c.clock.micros + c.delay.micros)

def call? (w : World) : Request → Option Call
  | .generate delay payload => some ⟨w.now, delay, payload⟩
  | _ => none

/-- What a request to generate a message adds to the agenda. -/
def generates (w : World) : Request → List (Item Pending)
  | .generate delay payload =>
    (w.generate delay payload).agenda.toList.filter (· ∉ w.agenda.toList)
  | _ => []

/-- The item that is delivered next: the first that is not a timeout armed again for later. -/
def upcoming? (w : World) : Option (Item Pending) :=
  w.agenda.toList.find? fun i => i.payload ≠ .timeout ∨ w.timeout = .armed i.due

/-- The item that a request takes off the agenda for delivery. -/
def delivers (w : World) : Request → Option (Item Pending)
  | .next => w.upcoming?
  | _ => none

def calls (w : World) : List Request → List Call
  | [] => []
  | q :: requests => (w.call? q).toList ++ (w.serve q).2.calls requests

def generatedAll (w : World) : List Request → List (Item Pending)
  | [] => []
  | q :: requests => w.generates q ++ (w.serve q).2.generatedAll requests

def deliveredAll (w : World) : List Request → List (Item Pending)
  | [] => []
  | q :: requests => (w.delivers q).toList ++ (w.serve q).2.deliveredAll requests

/-! What is on the agenda after something was put there, or taken from it. -/

theorem split_agenda (w : World) (due : Instant) :
    w.agenda.toList.filter (·.due ≤ due) ++ w.agenda.toList.filter (¬ ·.due ≤ due) =
      w.agenda.toList :=
  StableOrder.filter_append_filter_not w.pairwise_due due

theorem next_not_mem (a : Agenda Pending) (due : Instant) (p : Pending) :
    ⟨due, a.next, p⟩ ∉ a.toList := fun h => Nat.lt_irrefl _ (sequence_lt_next h)

/-- A new item is put between others, which keep their order. -/
theorem filter_put {w : World} {due : Instant} {p : Pending} (keep : Item Pending → Bool)
    (hnew : keep ⟨due, w.agenda.next, p⟩ = false) :
    (w.put due p).agenda.toList.filter keep = w.agenda.toList.filter keep := by
  have hpush : (w.put due p).agenda.toList = w.agenda.toList.filter (·.due ≤ due) ++
      ⟨due, w.agenda.next, p⟩ :: w.agenda.toList.filter (¬ ·.due ≤ due) := toList_push ..
  rw [hpush, List.filter_append, List.filter_cons_of_neg (by simp [hnew]), ← List.filter_append,
    split_agenda]

/-- An item that is due no earlier than others comes behind them. -/
theorem filter_put_last {w : World} {due : Instant} {p : Pending} (keep : Item Pending → Bool)
    (hnew : keep ⟨due, w.agenda.next, p⟩ = true)
    (hearlier : ∀ i ∈ w.agenda.toList, keep i = true → i.due ≤ due) :
    (w.put due p).agenda.toList.filter keep =
      w.agenda.toList.filter keep ++ [⟨due, w.agenda.next, p⟩] := by
  have hpush : (w.put due p).agenda.toList = w.agenda.toList.filter (·.due ≤ due) ++
      ⟨due, w.agenda.next, p⟩ :: w.agenda.toList.filter (¬ ·.due ≤ due) := toList_push ..
  have hlate : (w.agenda.toList.filter (¬ ·.due ≤ due)).filter keep = [] := by
    refine List.filter_eq_nil_iff.mpr fun i hi hkeep => ?_
    obtain ⟨hi, hdue⟩ := List.mem_filter.mp hi
    exact of_decide_eq_true hdue (hearlier i hi hkeep)
  have hearly := congrArg (List.filter keep) (w.split_agenda due)
  rw [List.filter_append, hlate, List.append_nil] at hearly
  rw [hpush, List.filter_append, List.filter_cons_of_pos hnew, hlate, hearly]

theorem generates_generate (w : World) (delay : Span) (payload : String) :
    w.generates (.generate delay payload) =
      [⟨max (w.now + delay) w.lastGenerated, w.agenda.next, .message .script payload⟩] := by
  have hnew := next_not_mem w.agenda (max (w.now + delay) w.lastGenerated)
    (.message .script payload)
  have hput := filter_put_last (fun i => decide (i ∉ w.agenda.toList)) (decide_eq_true hnew)
    fun i hi hkeep => absurd hi (of_decide_eq_true hkeep)
  have hnone : w.agenda.toList.filter (fun i => decide (i ∉ w.agenda.toList)) = [] := by simp
  rw [hnone, List.nil_append] at hput
  exact hput

/-- To take deliveries does not number anything. -/
theorem number_next (w : World) : w.next.2.agenda.next = w.agenda.next := by
  have hpop {a b : Agenda Pending} {i : Item Pending} (h : a.pop? = some (i, b)) :
      b.next = a.next := by
    obtain ⟨_, _, _, _, hnext⟩ := heap_of_pop? h
    exact hnext
  fun_induction World.next w with
  | case1 w h => rfl
  | case2 w item agenda h => exact hpop h
  | case3 w item agenda h => exact hpop h
  | case4 w item agenda h _ _ _ _ ih => exact ih.trans (hpop h)

theorem lastGenerated_next (w : World) : w.next.2.lastGenerated = w.lastGenerated :=
  next_induction (P := fun w r => r.2.lastGenerated = w.lastGenerated) (fun _ _ => rfl)
    (fun _ _ _ _ _ _ _ => rfl) (fun _ _ _ _ _ _ => rfl) (fun _ _ _ _ _ _ ih => ih) w

/-- The next delivery is made of the upcoming item, and only timeouts are passed over before it. -/
theorem Timely.next_eq_upcoming {w : World} (h : w.Timely) :
    w.next.1.bind (·.message?) = w.upcoming?.bind messageOf ∧
      ∃ passed, (∀ i ∈ passed, i.payload = .timeout) ∧
        w.agenda.toList = passed ++ (w.upcoming?.toList ++ w.next.2.agenda.toList) := by
  refine next_induction (P := fun w r => w.Timely →
    r.1.bind (·.message?) = w.upcoming?.bind messageOf ∧
      ∃ passed, (∀ i ∈ passed, i.payload = .timeout) ∧
        w.agenda.toList = passed ++ (w.upcoming?.toList ++ r.2.agenda.toList))
    ?empty ?message ?timeout ?passed w h
  case empty =>
    intro w hl h
    have hnone : w.upcoming? = none := by rw [upcoming?, hl, List.find?_nil]
    rw [hnone]
    exact ⟨rfl, [], by simp, by simp [hl]⟩
  case message =>
    intro w i b source text hi hp h
    have hdue : max w.now i.due = i.due := (h.took hi).2
    have hfirst : w.upcoming? = some i := by
      rw [upcoming?, hi]
      exact List.find?_cons_of_pos (by simp [hp])
    rw [hfirst, hdue]
    exact ⟨by simp [messageOf, hp, Delivery.message?], [], by simp, hi⟩
  case timeout =>
    intro w i b hi hp harmed h
    have hfirst : w.upcoming? = some i := by
      rw [upcoming?, hi]
      exact List.find?_cons_of_pos (by simp [harmed])
    rw [hfirst]
    exact ⟨by simp [messageOf, hp, Delivery.message?], [], by simp, hi⟩
  case passed =>
    intro w i b hi hp hother ih h
    obtain ⟨hmessage, passed, hpassed, heq⟩ := ih (h.took hi).1
    have hlater : w.upcoming? = (w.took i b).upcoming? := by
      rw [upcoming?, hi]
      exact List.find?_cons_of_neg (by simp [hp, hother])
    rw [hlater]
    refine ⟨hmessage, i :: passed, List.forall_mem_cons.mpr ⟨hp, hpassed⟩, ?_⟩
    rw [hi, List.cons_append, ← heq]
    rfl

/-- How a world stands that has generated and delivered the given items. -/
structure Queued (w : World) (generated delivered : List (Item Pending)) : Prop where
  timely : w.Timely
  /-- The generated items were delivered in their order, and those that were not are next in turn. -/
  inTurn : (delivered ++ w.agenda.toList).filter (· ∈ generated) = generated
  messages : ∀ i ∈ generated, i.payload ≠ .timeout
  due_le : ∀ i ∈ generated, i.due ≤ w.lastGenerated
  number_lt : ∀ i ∈ delivered, i.sequence < w.agenda.next
  numbers : generated.Pairwise (·.sequence < ·.sequence)

variable {w w' : World} {generated delivered : List (Item Pending)}

theorem Queued.mem (h : w.Queued generated delivered) {i : Item Pending} (hi : i ∈ generated) :
    i ∈ delivered ++ w.agenda.toList := by
  rw [← h.inTurn] at hi
  exact List.mem_of_mem_filter hi

theorem Queued.generated_lt (h : w.Queued generated delivered) {i : Item Pending}
    (hi : i ∈ generated) : i.sequence < w.agenda.next := by
  rcases List.mem_append.mp (h.mem hi) with hi | hi
  · exact h.number_lt i hi
  · exact sequence_lt_next hi

/-- Another world with the same agenda. -/
theorem Queued.same (h : w.Queued generated delivered) (hnow : w'.now = w.now)
    (hagenda : w'.agenda = w.agenda) (hlast : w'.lastGenerated = w.lastGenerated) :
    w'.Queued generated delivered where
  timely := by
    intro i hi
    rw [hagenda] at hi
    exact hnow ▸ h.timely i hi
  inTurn := hagenda ▸ h.inTurn
  messages := h.messages
  due_le := hlast ▸ h.due_le
  number_lt := hagenda ▸ h.number_lt
  numbers := h.numbers

/-- Whatever else is put on the agenda, the generated items keep their order. -/
theorem Queued.put (h : w.Queued generated delivered) {due : Instant} (hdue : w.now ≤ due)
    (p : Pending) : (w.put due p).Queued generated delivered where
  timely := h.timely.put hdue p
  inTurn := by
    have hnew : decide (⟨due, w.agenda.next, p⟩ ∈ generated) = false :=
      decide_eq_false fun hi => Nat.lt_irrefl _ (h.generated_lt hi)
    rw [List.filter_append, filter_put (fun i => decide (i ∈ generated)) hnew,
      ← List.filter_append, h.inTurn]
  messages := h.messages
  due_le := h.due_le
  number_lt i hi := Nat.lt_succ_of_lt (h.number_lt i hi)
  numbers := h.numbers

theorem Queued.schedule (h : w.Queued generated delivered) (m : Message) :
    (w.respond (w.schedule m)).2.Queued generated delivered := by
  rcases w.respond_schedule m with heq | heq <;> rw [heq]
  · exact h
  · exact h.put (le_max_right _ _) _

theorem filter_mem_concat {items generated : List (Item Pending)} {new : Item Pending}
    (hnew : new ∉ items) : items.filter (· ∈ generated ++ [new]) = items.filter (· ∈ generated) := by
  refine List.filter_congr fun i hi => ?_
  have hne : i ≠ new := fun heq => hnew (heq ▸ hi)
  simp [hne]

/-- A new message is the last of the generated ones to come. -/
theorem Queued.generate (h : w.Queued generated delivered) (delay : Span) (payload : String) :
    (w.generate delay payload).Queued
      (generated ++ w.generates (.generate delay payload)) delivered := by
  rw [generates_generate]
  generalize hdue : max (w.now + delay) w.lastGenerated = due
  generalize hp : Pending.message .script payload = p
  let new : Item Pending := ⟨due, w.agenda.next, p⟩
  have hworld : w.generate delay payload = { w.put due p with lastGenerated := due } := by
    rw [World.generate, hdue, hp]
  have hnow : w.now ≤ due := le_trans (Instant.le_add w.now delay) (hdue ▸ le_max_left _ _)
  have hlast : w.lastGenerated ≤ due := hdue ▸ le_max_right _ _
  have hlatest : ∀ i ∈ generated ++ [new], i.due ≤ due :=
    List.forall_mem_append.mpr ⟨fun i hi => le_trans (h.due_le i hi) hlast, by simp [new]⟩
  have hdelivered : new ∉ delivered := fun hi => Nat.lt_irrefl _ (h.number_lt new hi)
  rw [hworld]
  constructor
  case timely => exact h.timely.put hnow p
  case inTurn =>
    have hmem : new ∈ generated ++ [new] := by simp
    have hbehind := filter_put_last (fun i => decide (i ∈ generated ++ [new]))
      (decide_eq_true hmem) fun i _ hkept => hlatest i (of_decide_eq_true hkept)
    rw [List.filter_append, filter_mem_concat hdelivered]
    refine (congrArg _ hbehind).trans ?_
    rw [filter_mem_concat (next_not_mem w.agenda due p), ← List.append_assoc, ← List.filter_append,
      h.inTurn]
  case messages =>
    exact List.forall_mem_append.mpr ⟨h.messages, by simp [← hp]⟩
  case due_le => exact hlatest
  case number_lt => exact fun i hi => Nat.lt_succ_of_lt (h.number_lt i hi)
  case numbers =>
    refine List.pairwise_append.mpr ⟨h.numbers, List.pairwise_singleton _ _, fun i hi j hj => ?_⟩
    obtain rfl := List.mem_singleton.mp hj
    exact h.generated_lt hi

/-- What is delivered leaves the agenda, and of the rest only timeouts do. -/
theorem Queued.next (h : w.Queued generated delivered) :
    w.next.2.Queued generated (delivered ++ w.upcoming?.toList) := by
  obtain ⟨-, passed, hpassed, heq⟩ := h.timely.next_eq_upcoming
  have hnumber := w.number_next
  constructor
  case timely => exact h.timely.next
  case inTurn =>
    have hnone : passed.filter (· ∈ generated) = [] := by
      refine List.filter_eq_nil_iff.mpr fun i hi hgenerated => ?_
      exact h.messages i (of_decide_eq_true hgenerated) (hpassed i hi)
    have hinTurn := h.inTurn
    rw [heq, List.filter_append, List.filter_append, hnone, List.nil_append,
      ← List.filter_append] at hinTurn
    rwa [List.append_assoc]
  case messages => exact h.messages
  case due_le => exact w.lastGenerated_next.symm ▸ h.due_le
  case number_lt =>
    intro i hi
    rw [hnumber]
    rcases List.mem_append.mp hi with hi | hi
    · exact h.number_lt i hi
    · have hmem : i ∈ w.agenda.toList := by
        rw [heq]
        exact List.mem_append_right _ (List.mem_append_left _ hi)
      exact sequence_lt_next hmem
  case numbers => exact h.numbers

theorem Queued.serve (h : w.Queued generated delivered) (q : Request) :
    (w.serve q).2.Queued (generated ++ w.generates q) (delivered ++ (w.delivers q).toList) := by
  have hquiet (hserve : (w.serve q).2.Queued generated delivered) (hg : w.generates q = [])
      (hd : w.delivers q = none) :
      (w.serve q).2.Queued (generated ++ w.generates q) (delivered ++ (w.delivers q).toList) := by
    rw [hg, hd, Option.toList_none, List.append_nil, List.append_nil]
    exact hserve
  cases q with
  | addMote mote =>
    refine hquiet ?_ rfl rfl
    rw [World.serve]
    rcases w.respond_addMote mote with heq | heq <;> rw [heq]
    · exact h
    · exact h.same rfl rfl rfl
  | schedule m => exact hquiet (h.schedule m) rfl rfl
  | print time id text => exact hquiet (h.schedule ⟨time, .mote id, text⟩) rfl rfl
  | armTimeout after =>
    refine hquiet ?_ rfl rfl
    rw [World.serve]
    rcases w.respond_armTimeout after with heq | heq <;> rw [heq]
    · exact h
    · exact (h.put (Instant.le_add w.now after) .timeout).same rfl rfl rfl
  | generate delay payload =>
    have hgenerate := h.generate delay payload
    rwa [← List.append_nil delivered] at hgenerate
  | next =>
    have hnext := h.next
    rwa [← List.append_nil generated] at hnext
  | broadcast mode bindings => exact hquiet (h.same rfl rfl rfl) rfl rfl

theorem Queued.serveAll (h : w.Queued generated delivered) (requests : List Request) :
    (w.serveAll requests).2.Queued (generated ++ w.generatedAll requests)
      (delivered ++ w.deliveredAll requests) := by
  induction requests generalizing w generated delivered with
  | nil =>
    rw [generatedAll, deliveredAll, List.append_nil, List.append_nil]
    exact h
  | cons q requests ih =>
    have hall := ih (h.serve q)
    rwa [List.append_assoc, List.append_assoc] at hall

/-- The answers are made of the delivered items. -/
theorem Timely.messages_serveAll (h : w.Timely) (requests : List Request) :
    (w.serveAll requests).1.filterMap Response.message? =
      (w.deliveredAll requests).filterMap messageOf := by
  have hfirst {w : World} (h : w.Timely) (q : Request) :
      (w.serve q).1.message?.toList = (w.delivers q).toList.filterMap messageOf := by
    cases q with
    | next =>
      have hmessage : (w.serve .next).1.message? = w.upcoming?.bind messageOf :=
        h.next_eq_upcoming.1
      rw [hmessage, delivers]
      cases w.upcoming? with
      | none => rfl
      | some i => cases hm : messageOf i <;> simp [hm]
    | addMote mote => rw [World.serve, message?_respond]; rfl
    | schedule m => rw [World.serve, message?_respond]; rfl
    | print time id text => rw [World.serve, message?_respond]; rfl
    | armTimeout after => rw [World.serve, message?_respond]; rfl
    | generate delay payload => rfl
    | broadcast mode bindings => rfl
  induction requests generalizing w with
  | nil => rfl
  | cons q requests ih =>
    rw [deliveredAll, List.filterMap_append, ← ih (h.serve q), ← hfirst h q]
    simp only [World.serveAll, List.filterMap_cons]
    cases (w.serve q).1.message? <;> rfl

/-! When generated messages are due. -/

/-- The greatest of the instants up to each place. -/
def latest : Instant → List Instant → List Instant
  | _, [] => []
  | last, t :: ts => max t last :: latest (max t last) ts

theorem isGreatest_latest {last d : Instant} {ts : List Instant} {k : Nat}
    (h : (latest last ts)[k]? = some d) :
    IsGreatest (insert last {t | t ∈ ts.take (k + 1)}) d := by
  induction ts generalizing last k with
  | nil => simp [latest] at h
  | cons t ts ih =>
    cases k with
    | zero =>
      obtain rfl : max t last = d := by simpa [latest] using h
      have hset : insert last {s | s ∈ (t :: ts).take (0 + 1)} = {last, t} := by
        ext s
        simp
      rw [hset, max_comm]
      exact isGreatest_pair
    | succ k =>
      have hrest : (latest (max t last) ts)[k]? = some d := by simpa [latest] using h
      obtain ⟨hmem, hupper⟩ := ih hrest
      constructor
      · rcases hmem with rfl | hmem
        · rcases max_choice t last with hmax | hmax
          · rw [hmax]
            exact .inr (by simp)
          · rw [hmax]
            exact .inl rfl
        · exact .inr (List.mem_cons_of_mem t hmem)
      · intro s hs
        have hmax := hupper (Set.mem_insert _ _)
        rcases hs with rfl | hs
        · exact le_trans (le_max_right _ _) hmax
        · rcases List.mem_cons.mp (by simpa using hs) with rfl | hs
          · exact le_trans (le_max_left _ _) hmax
          · exact hupper (.inr hs)

theorem isGreatest_latest_zero {d : Instant} {ts : List Instant} {k : Nat}
    (h : (latest .zero ts)[k]? = some d) : IsGreatest {t | t ∈ ts.take (k + 1)} d := by
  obtain ⟨hmem, hupper⟩ := isGreatest_latest h
  refine ⟨?_, fun t ht => hupper (.inr ht)⟩
  rcases hmem with rfl | hmem
  · -- If nothing is due later than the first instant, then neither is the first bound.
    cases ts with
    | nil => cases h
    | cons t ts =>
      have hfirst : t ∈ (t :: ts).take (k + 1) := by simp
      obtain rfl : t = .zero := le_antisymm (hupper (.inr hfirst)) (Instant.zero_le t)
      exact hfirst
  · exact hmem

/-- A request that calls for nothing generates nothing. -/
theorem lastGenerated_serve {q : Request} (h : w.call? q = none) :
    w.generates q = [] ∧ (w.serve q).2.lastGenerated = w.lastGenerated := by
  have hschedule (m : Message) :
      (w.respond (w.schedule m)).2.lastGenerated = w.lastGenerated := by
    rcases w.respond_schedule m with heq | heq <;> rw [heq]
    rfl
  cases q with
  | generate delay payload => cases h
  | addMote mote =>
    refine ⟨rfl, ?_⟩
    rw [World.serve]
    rcases w.respond_addMote mote with heq | heq <;> rw [heq]
  | schedule m => exact ⟨rfl, hschedule m⟩
  | print time id text => exact ⟨rfl, hschedule ⟨time, .mote id, text⟩⟩
  | armTimeout after =>
    refine ⟨rfl, ?_⟩
    rw [World.serve]
    rcases w.respond_armTimeout after with heq | heq <;> rw [heq]
    rfl
  | next => exact ⟨rfl, w.lastGenerated_next⟩
  | broadcast mode bindings => exact ⟨rfl, rfl⟩

/-- One item for each call, with its payload, due as soon as its own bound and the item before allow. -/
theorem generatedAll_eq (w : World) (requests : List Request) :
    (w.generatedAll requests).map (·.due) =
        latest w.lastGenerated ((w.calls requests).map (·.bound)) ∧
      (w.generatedAll requests).map (·.payload) =
        (w.calls requests).map fun c => .message .script c.payload := by
  induction requests generalizing w with
  | nil => exact ⟨rfl, rfl⟩
  | cons q requests ih =>
    obtain ⟨hdue, hpayload⟩ := ih (w.serve q).2
    rw [generatedAll, calls, List.map_append, List.map_append, List.map_append, List.map_append,
      hdue, hpayload]
    cases hc : w.call? q with
    | none =>
      obtain ⟨hnone, hlast⟩ := lastGenerated_serve hc
      rw [hnone, hlast]
      exact ⟨rfl, rfl⟩
    | some c =>
      cases q with
      | generate delay payload =>
        obtain rfl := Option.some.inj hc
        rw [generates_generate]
        exact ⟨rfl, rfl⟩
      | _ => cases hc

theorem deliveredAll_append (w : World) (front back : List Request) :
    w.deliveredAll (front ++ back) =
      w.deliveredAll front ++ (w.serveAll front).2.deliveredAll back := by
  induction front generalizing w with
  | nil => rfl
  | cons q front ih =>
    rw [List.cons_append, deliveredAll, deliveredAll, ih, List.append_assoc]
    rfl

theorem generatedAll_next (w : World) (n : Nat) : w.generatedAll (List.replicate n .next) = [] := by
  induction n generalizing w with
  | zero => rfl
  | succ n ih => exact ih _

/-- What a world that serves `requests` makes of the calls among them. -/
structure InTurn (w : World) (requests : List Request) : Prop where
  /-- What is delivered are the messages of the delivered items, each at the time it was due. -/
  answers : (w.serveAll requests).1.filterMap Response.message? =
    (w.deliveredAll requests).filterMap messageOf
  /-- Each call generates one message of the script's own, with its payload. -/
  payloads : (w.generatedAll requests).map (·.payload) =
    (w.calls requests).map fun c => .message .script c.payload
  /-- A generated message is due at the greatest bound of all calls up to its own. -/
  due : ∀ k item, (w.generatedAll requests)[k]? = some item →
    IsGreatest {t | ∃ c ∈ (w.calls requests).take (k + 1), c.bound = t} item.due
  distinct : (w.generatedAll requests).Nodup
  /-- The generated items are delivered in the order of the calls, each once, and those that were not
  delivered yet are pending in that order. -/
  inOrder : (w.deliveredAll requests ++ (w.serveAll requests).2.agenda.toList).filter
    (· ∈ w.generatedAll requests) = w.generatedAll requests
  /-- All of them get delivered. -/
  drained : ∀ n, (w.serveAll requests).2.agenda.toList.length ≤ n →
    (w.deliveredAll (requests ++ List.replicate n .next)).filter (· ∈ w.generatedAll requests) =
      w.generatedAll requests

/-- Messages generated by a new world come in turn, whatever else is asked of the world. -/
theorem generated_inTurn (seed : UInt64) (count : Nat) (requests : List Request) :
    InTurn (withMotes seed count) requests := by
  have htimely := timely_withMotes seed count
  have hnew : (withMotes seed count).Queued [] [] :=
    ⟨htimely, by simp, by simp, by simp, by simp, .nil⟩
  have hqueued := hnew.serveAll requests
  rw [List.nil_append, List.nil_append] at hqueued
  obtain ⟨hdues, hpayloads⟩ := (withMotes seed count).generatedAll_eq requests
  constructor
  case answers => exact htimely.messages_serveAll requests
  case payloads => exact hpayloads
  case due =>
    intro k item hitem
    have hlatest : (latest .zero (((withMotes seed count).calls requests).map (·.bound)))[k]? =
        some item.due := by
      rw [← show _ = latest .zero _ from hdues, List.getElem?_map, hitem]
      rfl
    have hgreatest := isGreatest_latest_zero hlatest
    simpa only [← List.map_take, List.mem_map] using hgreatest
  case distinct => exact hqueued.numbers.imp fun hlt heq => hlt.ne (congrArg Item.sequence heq)
  case inOrder => exact hqueued.inTurn
  case drained =>
    intro n hn
    have hdrained := (hqueued.serveAll (List.replicate n .next)).inTurn
    rw [generatedAll_next, List.append_nil, ← deliveredAll_append, toList_drained hn,
      List.append_nil] at hdrained
    exact hdrained

/-- A message with a shorter delay waits for the one that was asked for first. -/
example : ((withMotes 1 0).serveAll [.generate (.ofMillis 300) "long",
      .generate (.ofMillis 15) "short", .next, .next]).1.filterMap Response.message? =
    [⟨.ofMillis 300, .script, "long"⟩, ⟨.ofMillis 300, .script, "short"⟩] := by
  decide +kernel

end World

end MoteBench
