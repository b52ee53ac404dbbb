import MoteBench.Proofs.StableOrder
import MoteBench.Proofs.World.Docket

/-!
Which messages a world delivers, and in what order. At every point of every history, what was
delivered so far and what is still pending are, one after the other, all messages that the world
accepted, in the order of their times and for equal times in the order of arrival.
-/
namespace MoteBench

open Memory Agenda

def Delivery.message? : Delivery → Option Message
  | .message m => some m
  | .timeout _ => none

namespace World

def messageOf (i : Item Pending) : Option Message :=
  match i.payload with
  | .message source text => some ⟨i.due, source, text⟩
  | .timeout => none

/-- The messages on the agenda, in the order in which they come up. -/
def pending (w : World) : List Message := w.agenda.toList.filterMap messageOf

/-- What a request puts on the agenda, at the time at which it will be delivered. -/
def accepts (w : World) : Request → List Message
  | .schedule m => if w.knows m.source then [{ m with time := max m.time w.now }] else []
  | .print time id text =>
    if w.knows (.mote id) then [⟨max time w.now, .mote id, text⟩] else []
  | .generate delay payload => [⟨max (w.now + delay) w.lastGenerated, .script, payload⟩]
  | _ => []

/-- All messages accepted in answer to requests, in the order of arrival. -/
def acceptedAll (w : World) : List Request → List Message
  | [] => []
  | q :: requests => w.accepts q ++ (w.serve q).2.acceptedAll requests

def Response.message? : Response → Option Message
  | .delivery d? => d?.bind (·.message?)
  | _ => none

theorem time_of_messageOf {i : Item Pending} {m : Message} (h : messageOf i = some m) :
    m.time = i.due := by
  unfold messageOf at h
  split at h
  · obtain rfl := Option.some.inj h
    rfl
  · cases h

theorem pairwise_pending (w : World) : w.pending.Pairwise (·.time ≤ ·.time) := by
  apply List.pairwise_filterMap.mpr (w.pairwise_due.imp _)
  intro i j hij m hm n hn
  rwa [time_of_messageOf hm, time_of_messageOf hn]

theorem Timely.le_of_mem_pending {w : World} (h : w.Timely) {m : Message} (hm : m ∈ w.pending) :
    w.now ≤ m.time := by
  obtain ⟨i, hi, him⟩ := List.mem_filterMap.mp hm
  rw [time_of_messageOf him]
  exact h i hi

theorem filter_time_filter_due (items : List (Item Pending)) (early : Instant → Bool)
    (t : Instant) :
    ((items.filter (early ·.due)).filterMap messageOf).filter (·.time = t) =
      if early t then (items.filterMap messageOf).filter (·.time = t) else [] := by
  rw [List.filterMap_filter, List.filter_filterMap, List.filter_filterMap]
  have hitem : ∀ i ∈ items, (if early i.due then messageOf i else none).filter (·.time = t) =
      if early t then (messageOf i).filter (·.time = t) else none := by
    intro i _
    cases hm : messageOf i with
    | none => simp
    | some m =>
      by_cases ht : m.time = t
      · rw [← time_of_messageOf hm, ht]
        split <;> rfl
      · split <;> simp [Option.filter, ht]
  rw [List.filterMap_congr hitem]
  split
  · rfl
  · simp

/-- What is put on the agenda comes up behind all that is due at the same time. -/
theorem filter_pending_put (w : World) (due : Instant) (p : Pending) (t : Instant) :
    (w.put due p).pending.filter (·.time = t) =
      (w.pending ++ (messageOf ⟨due, w.agenda.next, p⟩).toList).filter (·.time = t) := by
  have hearly := filter_time_filter_due w.agenda.toList (fun i => decide (i ≤ due)) t
  have hlate := filter_time_filter_due w.agenda.toList (fun i => decide (¬ i ≤ due)) t
  have hpending : (w.put due p).pending = (w.agenda.toList.filter (·.due ≤ due)).filterMap messageOf
      ++ ((messageOf ⟨due, w.agenda.next, p⟩).toList
        ++ (w.agenda.toList.filter (¬ ·.due ≤ due)).filterMap messageOf) := by
    simp only [pending, put, toList_push, List.filterMap_append, List.filterMap_cons]
    cases messageOf ⟨due, w.agenda.next, p⟩ <;> rfl
  rw [hpending, List.filter_append, List.filter_append, List.filter_append, hearly, hlate]
  by_cases ht : t ≤ due
  · simp [ht, pending]
  · have hnew : (messageOf ⟨due, w.agenda.next, p⟩).toList.filter (·.time = t) = [] := by
      apply List.filter_eq_nil_iff.mpr
      intro m hm
      have hdue : m.time = due := time_of_messageOf (by simpa using hm)
      simpa using fun h => ht (h.symm.trans hdue).le
    simp [ht, hnew, pending]

/-- What happened between two states of a world. -/
structure Accounted (w : World) (delivered accepted : List Message) (w' : World) : Prop where
  clock : w.now ≤ w'.now
  inOrder : delivered.Pairwise (·.time ≤ ·.time)
  past : ∀ m ∈ delivered, w.now ≤ m.time ∧ m.time ≤ w'.now
  each : ∀ t, (delivered ++ w'.pending).filter (·.time = t) =
    (w.pending ++ accepted).filter (·.time = t)

theorem Accounted.trans {w w₁ w₂ : World} {d₁ d₂ a₁ a₂ : List Message} (h₁ : Accounted w d₁ a₁ w₁)
    (h₂ : Accounted w₁ d₂ a₂ w₂) : Accounted w (d₁ ++ d₂) (a₁ ++ a₂) w₂ where
  clock := le_trans h₁.clock h₂.clock
  inOrder := by
    refine List.pairwise_append.mpr ⟨h₁.inOrder, h₂.inOrder, fun m hm n hn => ?_⟩
    exact le_trans (h₁.past m hm).2 (h₂.past n hn).1
  past m hm := by
    rcases List.mem_append.mp hm with hm | hm
    · exact ⟨(h₁.past m hm).1, le_trans (h₁.past m hm).2 h₂.clock⟩
    · exact ⟨le_trans h₁.clock (h₂.past m hm).1, (h₂.past m hm).2⟩
  each t := by
    have e₁ := h₁.each t
    have e₂ := h₂.each t
    simp only [List.filter_append] at e₁ e₂ ⊢
    rw [List.append_assoc, e₂, ← List.append_assoc, e₁, List.append_assoc]

/-- A world that only has other motes, or another timeout, has the same messages. -/
theorem Accounted.same {w w' : World} (hnow : w'.now = w.now) (hagenda : w'.agenda = w.agenda) :
    Accounted w [] [] w' :=
  ⟨le_of_eq hnow.symm, .nil, by simp, by simp [pending, hagenda]⟩

theorem Accounted.refl (w : World) : Accounted w [] [] w := .same rfl rfl

/-- All that is known about the messages of a history, in one equation. -/
theorem Accounted.eq_mergeSort {w w' : World} {delivered accepted : List Message}
    (h : Accounted w delivered accepted w') (hw' : w'.Timely) :
    delivered ++ w'.pending = (w.pending ++ accepted).mergeSort (·.time ≤ ·.time) := by
  apply StableOrder.eq_mergeSort _ h.each
  refine List.pairwise_append.mpr ⟨h.inOrder, w'.pairwise_pending, fun m hm n hn => ?_⟩
  exact le_trans (h.past m hm).2 (hw'.le_of_mem_pending hn)

/-! Each request accounts for its messages, and so does a whole history. -/

theorem accounted_put (w : World) (due : Instant) (p : Pending) :
    Accounted w [] (messageOf ⟨due, w.agenda.next, p⟩).toList (w.put due p) :=
  ⟨le_rfl, .nil, by simp, filter_pending_put w due p⟩

theorem Timely.accounted_took {w : World} (h : w.Timely) {i : Item Pending} {b : Agenda Pending}
    (hi : w.agenda.toList = i :: b.toList) :
    Accounted w (messageOf i).toList [] (w.took i b) := by
  have hdue : (w.took i b).now = i.due := (h.took hi).2
  have hpending : w.pending = (messageOf i).toList ++ (w.took i b).pending := by
    simp only [pending, hi, List.filterMap_cons]
    cases messageOf i <;> rfl
  refine ⟨le_max_left _ _, by cases messageOf i <;> simp, fun m hm => ?_, fun t => ?_⟩
  · rw [time_of_messageOf (by simpa using hm), hdue]
    exact ⟨h i (by simp [hi]), le_rfl⟩
  · rw [hpending, List.append_nil]

theorem Timely.accounted_next {w : World} (h : w.Timely) :
    Accounted w (w.next.1.bind (·.message?)).toList [] w.next.2 := by
  refine next_induction (P := fun w r => w.Timely →
    Accounted w (r.1.bind (·.message?)).toList [] r.2) ?empty ?message ?timeout ?passed w h
  case empty => exact fun w hl h => .refl w
  case message =>
    intro w i b source text hi hp h
    have hdue : max w.now i.due = i.due := (h.took hi).2
    simpa [messageOf, hp, Delivery.message?, hdue] using h.accounted_took hi
  case timeout =>
    intro w i b hi hp harmed h
    obtain ⟨hclock, hinOrder, hpast, heach⟩ := h.accounted_took hi
    rw [messageOf, hp] at hinOrder hpast heach
    exact ⟨hclock, hinOrder, hpast, heach⟩
  case passed =>
    intro w i b hi hp hother ih h
    have htook := h.accounted_took hi
    rw [messageOf, hp] at htook
    exact htook.trans (ih (h.took hi).1)

theorem accounted_schedule (w : World) (m : Message) :
    Accounted w [] (w.accepts (.schedule m)) (w.respond (w.schedule m)).2 := by
  cases hk : w.knows m.source with
  | true =>
    rw [schedule_of_knows hk, accepts, if_pos hk]
    exact accounted_put w (max m.time w.now) (.message m.source m.text)
  | false =>
    obtain ⟨id, -, hrefused⟩ := schedule_of_not_knows hk
    rw [hrefused, accepts, if_neg (by simp [hk])]
    exact .refl w

theorem message?_respond (w : World) (answer : Except Refusal World) :
    (w.respond answer).1.message? = none := by
  cases answer <;> rfl

theorem Timely.accounted_serve {w : World} (h : w.Timely) (q : Request) :
    Accounted w (w.serve q).1.message?.toList (w.accepts q) (w.serve q).2 := by
  cases q with
  | addMote mote =>
    rw [World.serve, message?_respond]
    rcases w.respond_addMote mote with heq | heq <;> rw [heq]
    · exact .refl w
    · exact .same rfl rfl
  | schedule m =>
    rw [World.serve, message?_respond]
    exact accounted_schedule w m
  | print time id text =>
    rw [World.serve, message?_respond]
    exact accounted_schedule w ⟨time, .mote id, text⟩
  | armTimeout after =>
    rw [World.serve, message?_respond]
    rcases w.respond_armTimeout after with heq | heq <;> rw [heq]
    · exact .refl w
    · have hput := accounted_put w (w.now + after) .timeout
      exact ⟨hput.clock, hput.inOrder, hput.past, hput.each⟩
  | generate delay payload =>
    have hput := accounted_put w (max (w.now + delay) w.lastGenerated) (.message .script payload)
    exact ⟨hput.clock, hput.inOrder, hput.past, hput.each⟩
  | next => exact h.accounted_next
  | broadcast mode bindings => exact .same rfl rfl

theorem Timely.accounted_serveAll {w : World} (h : w.Timely) (requests : List Request) :
    Accounted w ((w.serveAll requests).1.filterMap Response.message?) (w.acceptedAll requests)
      (w.serveAll requests).2 := by
  induction requests generalizing w with
  | nil => exact .refl w
  | cons q requests ih =>
    have hall := (h.accounted_serve q).trans (ih (h.serve q))
    have hdelivered : (w.serveAll (q :: requests)).1.filterMap Response.message? =
        (w.serve q).1.message?.toList ++
          ((w.serve q).2.serveAll requests).1.filterMap Response.message? := by
      simp only [World.serveAll, List.filterMap_cons]
      cases (w.serve q).1.message? <;> rfl
    rw [hdelivered]
    exact hall

/-! Asked often enough, a world delivers all that is pending. -/

theorem length_next (w : World) :
    w.next.2.agenda.toList.length ≤ w.agenda.toList.length - 1 := by
  have htook {w : World} {i : Item Pending} {b : Agenda Pending}
      (hi : w.agenda.toList = i :: b.toList) :
      (w.took i b).agenda.toList.length = w.agenda.toList.length - 1 := by
    rw [hi, List.length_cons, Nat.add_sub_cancel]
    rfl
  refine next_induction (P := fun w r =>
    r.2.agenda.toList.length ≤ w.agenda.toList.length - 1) ?empty ?message ?timeout ?passed w
  case empty =>
    intro w hl
    rw [hl]
    exact Nat.zero_le _
  case message => exact fun w i b source text hi hp => le_of_eq (htook hi)
  case timeout => exact fun w i b hi hp harmed => le_of_eq (htook hi)
  case passed =>
    intro w i b hi hp hother ih
    have hlength := htook hi
    omega

theorem toList_drained {w : World} {n : Nat} (h : w.agenda.toList.length ≤ n) :
    (w.serveAll (List.replicate n .next)).2.agenda.toList = [] := by
  induction n generalizing w with
  | zero => exact List.length_eq_zero_iff.mp (Nat.le_zero.mp h)
  | succ n ih =>
    have hnext := w.length_next
    apply ih (w := w.next.2)
    omega

theorem acceptedAll_next (w : World) (n : Nat) : w.acceptedAll (List.replicate n .next) = [] := by
  induction n generalizing w with
  | zero => rfl
  | succ n ih => exact ih w.next.2

theorem Timely.delivered_drained {w : World} (h : w.Timely) {n : Nat}
    (hn : w.agenda.toList.length ≤ n) :
    (w.serveAll (List.replicate n .next)).1.filterMap Response.message? = w.pending := by
  have hall := (h.accounted_serveAll (List.replicate n .next)).eq_mergeSort (h.serveAll _)
  have hleft : (w.serveAll (List.replicate n .next)).2.pending = [] := by
    rw [pending, toList_drained hn, List.filterMap_nil]
  rw [acceptedAll_next, hleft, List.append_nil, List.append_nil] at hall
  rw [hall]
  exact List.mergeSort_of_pairwise (by simpa using w.pairwise_pending)

/-- How the world `w` serves `requests`, next to the docket `d` that is asked for the same. -/
structure Faithful (w : World) (d : Docket) (requests : List Request) : Prop where
  /-- Every answer is the docket's, and so is all that it leaves on the agenda. -/
  alike : ((w.serveAll requests).1, (w.serveAll requests).2.docket) = d.serveAll requests
  /-- What was delivered and what is pending are, one after the other, all accepted messages sorted
  by time, and those of one time stay in the order of arrival. -/
  inOrder : (w.serveAll requests).1.filterMap Response.message? ++ (w.serveAll requests).2.pending
    = (w.acceptedAll requests).mergeSort (·.time ≤ ·.time)
  /-- All that is pending gets delivered. -/
  drained : ∀ n, (w.serveAll requests).2.agenda.toList.length ≤ n →
    ((w.serveAll requests).2.serveAll (List.replicate n .next)).1.filterMap Response.message? =
        (w.serveAll requests).2.pending ∧
      ((w.serveAll requests).2.serveAll (List.replicate n .next)).2.agenda.toList = []

/-- A new world serves every sequence of requests as the docket of its motes does. -/
theorem faithful (seed : UInt64) (count : Nat) (requests : List Request) :
    Faithful (withMotes seed count) { motes := (List.range count).map fun i => .ofNat (i + 1) }
      requests := by
  have htimely := timely_withMotes seed count
  have hafter := htimely.serveAll requests
  have hdocket : (withMotes seed count).docket =
      { motes := (List.range count).map fun i => .ofNat (i + 1) } := by
    have hids (i : MoteId) : (Mote.firmware i).id = i := rfl
    simp [docket, withMotes, toList, Heap.items, hids]
  have hpending : (withMotes seed count).pending = [] := by
    simp [pending, withMotes, toList, Heap.items]
  constructor
  case alike => rw [docket_serveAll htimely, hdocket]
  case inOrder =>
    rw [(htimely.accounted_serveAll requests).eq_mergeSort hafter, hpending, List.nil_append]
  case drained => exact fun n hn => ⟨hafter.delivered_drained hn, toList_drained hn⟩

end World

end MoteBench
