import MoteBench.Proofs.World.Delivery

/-!
The one timeout of a world. However requests interleave, it is armed for later and later deadlines,
and it is delivered once, at the last of them, between the messages due before and after.
-/
namespace MoteBench

open Memory Agenda

def Delivery.expiry? : Delivery → Option Instant
  | .message _ => none
  | .timeout time => some time

namespace World

def Response.expiry? : Response → Option Instant
  | .delivery d? => d?.bind (·.expiry?)
  | _ => none

/-- The deadline for which a request arms the timeout, none if it is refused. -/
def arms (w : World) : Request → List Instant
  | .armTimeout after =>
    match w.armTimeout after with
    | .ok _ => [w.now + after]
    | .error _ => []
  | _ => []

/-- All deadlines for which requests armed the timeout, one after the other. -/
def armedAll (w : World) : List Request → List Instant
  | [] => []
  | q :: requests => w.arms q ++ (w.serve q).2.armedAll requests

/-- When the timeout was delivered in the course of requests. -/
def expiries (w : World) (requests : List Request) : List Instant :=
  (w.serveAll requests).1.filterMap Response.expiry?

/-- A timeout is refused once it has fired, or if it would come before the one that is armed. -/
theorem armTimeout_eq_error_iff {w : World} {after : Span} {cause : Refusal} :
    w.armTimeout after = .error cause ↔
      w.timeout = .fired ∧ cause = .timeoutFired ∨
      ∃ armed, w.timeout = .armed armed ∧ w.now + after < armed ∧
        cause = .timeoutEarlier armed (w.now + after) := by
  unfold armTimeout
  cases w.timeout with
  | disarmed => simp
  | fired => simp [eq_comm]
  | armed armed =>
    dsimp only
    by_cases hlt : w.now + after < armed
    · simp [hlt, eq_comm]
    · simp [hlt]

/-- A timeout that is accepted has not fired, and comes no earlier than the one that is armed. -/
theorem accepted_of_armTimeout {w w' : World} {after : Span} (h : w.armTimeout after = .ok w') :
    w.timeout ≠ .fired ∧ ∀ armed, w.timeout = .armed armed → armed ≤ w.now + after := by
  have hnot (cause : Refusal) : w.armTimeout after ≠ .error cause := by
    rw [h]
    exact fun heq => by cases heq
  constructor
  · exact fun hfired => hnot _ (armTimeout_eq_error_iff.mpr (.inl ⟨hfired, rfl⟩))
  · intro armed harmed
    by_contra hearlier
    exact hnot _ (armTimeout_eq_error_iff.mpr (.inr ⟨armed, harmed, lt_of_not_ge hearlier, rfl⟩))

/-- The timeout is armed for `deadline`, and it stands on the agenda. -/
structure Awaits (w : World) (deadline : Instant) : Prop where
  armed : w.timeout = .armed deadline
  pending : ∃ i ∈ w.agenda.toList, i.due = deadline ∧ i.payload = .timeout

variable {w w' : World} {deadline : Instant}

theorem Awaits.of_subset (h : w.Awaits deadline) (htimeout : w'.timeout = w.timeout)
    (hagenda : w.agenda.toList ⊆ w'.agenda.toList) : w'.Awaits deadline := by
  obtain ⟨i, hi, hdue⟩ := h.pending
  exact ⟨htimeout.trans h.armed, i, hagenda hi, hdue⟩

theorem subset_put (w : World) (due : Instant) (p : Pending) :
    w.agenda.toList ⊆ (w.put due p).agenda.toList :=
  fun _ hi => mem_toList_push.mpr (.inl hi)

theorem awaits_of_armTimeout {after : Span} (h : w.armTimeout after = .ok w') :
    w'.Awaits (w.now + after) := by
  obtain rfl := armTimeout_eq_ok h
  exact ⟨rfl, _, mem_toList_push.mpr (.inr rfl), rfl, rfl⟩

/-- An awaited timeout is not lost: it is delivered next, or else a message is. -/
theorem Awaits.next (h : w.Awaits deadline) :
    (∃ m, w.next.1 = some (.message m) ∧ w.next.2.Awaits deadline) ∨
      ∃ time, w.next.1 = some (.timeout time) := by
  have htook {w : World} {i : Item Pending} {b : Agenda Pending} (h : w.Awaits deadline)
      (hi : w.agenda.toList = i :: b.toList) (hother : i.payload = .timeout → i.due ≠ deadline) :
      (w.took i b).Awaits deadline := by
    obtain ⟨j, hj, hdue, hp⟩ := h.pending
    rw [hi] at hj
    rcases List.mem_cons.mp hj with rfl | hj
    · exact absurd hdue (hother hp)
    · exact ⟨h.armed, j, hj, hdue, hp⟩
  refine next_induction (P := fun w r => w.Awaits deadline →
    (∃ m, r.1 = some (.message m) ∧ r.2.Awaits deadline) ∨ ∃ time, r.1 = some (.timeout time))
    ?empty ?message ?timeout ?passed w h
  case empty =>
    intro w hl h
    obtain ⟨i, hi, -⟩ := h.pending
    rw [hl] at hi
    cases hi
  case message =>
    intro w i b source text hi hp h
    exact .inl ⟨_, rfl, htook h hi fun hp' => by cases hp.symm.trans hp'⟩
  case timeout => exact fun w i b hi hp harmed h => .inr ⟨_, rfl⟩
  case passed =>
    intro w i b hi hp hother ih h
    exact ih (htook h hi fun _ hdue => hother (hdue ▸ h.armed))

/-- Only the delivery of the timeout changes its state, and the clock is at the deadline then. -/
theorem Timely.timeout_next (h : w.Timely) :
    w.next.1.bind (·.expiry?) = none ∧ w.next.2.timeout = w.timeout ∨
      ∃ deadline, w.timeout = .armed deadline ∧ w.next.1 = some (.timeout deadline) ∧
        w.next.2.timeout = .fired ∧ w.next.2.now = deadline := by
  refine next_induction (P := fun w r => w.Timely →
    r.1.bind (·.expiry?) = none ∧ r.2.timeout = w.timeout ∨
      ∃ deadline, w.timeout = .armed deadline ∧ r.1 = some (.timeout deadline) ∧
        r.2.timeout = .fired ∧ r.2.now = deadline) ?empty ?message ?timeout ?passed w h
  case empty => exact fun w hl h => .inl ⟨rfl, rfl⟩
  case message => exact fun w i b source text hi hp h => .inl ⟨rfl, rfl⟩
  case timeout =>
    intro w i b hi hp harmed h
    have hdue : max w.now i.due = i.due := (h.took hi).2
    exact .inr ⟨i.due, harmed, by rw [hdue], rfl, hdue⟩
  case passed => exact fun w i b hi hp hother ih h => ih (h.took hi).1

/-- Where the timeout of a world stands that was armed for the deadlines `armed`, one after the
other, and delivered at `expired`. -/
inductive Watched : World → List Instant → List Instant → Prop where
  | disarmed {w : World} (h : w.timeout = .disarmed) : Watched w [] []
  | armed {w : World} {earlier : List Instant} {deadline : Instant}
      (sorted : (earlier ++ [deadline]).Pairwise (· ≤ ·)) (h : w.Awaits deadline) :
      Watched w (earlier ++ [deadline]) []
  | fired {w : World} {earlier : List Instant} {deadline : Instant}
      (sorted : (earlier ++ [deadline]).Pairwise (· ≤ ·)) (h : w.timeout = .fired) :
      Watched w (earlier ++ [deadline]) [deadline]

variable {armed expired : List Instant}

theorem Watched.sorted (h : w.Watched armed expired) : armed.Pairwise (· ≤ ·) := by
  cases h with
  | disarmed h => exact .nil
  | armed sorted h => exact sorted
  | fired sorted h => exact sorted

theorem Watched.fired_iff (h : w.Watched armed expired) : w.timeout = .fired ↔ expired ≠ [] := by
  cases h with
  | disarmed h => simp [h]
  | armed sorted h => simp [h.armed]
  | fired sorted h => simp [h]

theorem Watched.armed_iff (h : w.Watched armed expired) :
    w.timeout = .armed deadline ↔ expired = [] ∧ armed.getLast? = some deadline := by
  cases h with
  | disarmed h => simp [h]
  | armed sorted h => simp [h.armed]
  | fired sorted h => simp [h]

theorem Watched.awaits (h : w.Watched armed expired) (harmed : w.timeout = .armed deadline) :
    w.Awaits deadline := by
  cases h with
  | disarmed h => cases h.symm.trans harmed
  | armed sorted h => exact TimeoutState.armed.inj (h.armed.symm.trans harmed) ▸ h
  | fired sorted h => cases h.symm.trans harmed

/-- The timeout was delivered at the last of its deadlines, or not at all. -/
theorem Watched.expired_cases (h : w.Watched armed expired) :
    expired = [] ∨ ∃ deadline, armed.getLast? = some deadline ∧ expired = [deadline] := by
  cases h with
  | disarmed h => exact .inl rfl
  | armed sorted h => exact .inl rfl
  | fired sorted h => exact .inr ⟨_, List.getLast?_concat, rfl⟩

theorem Watched.getLast?_of_mem (h : w.Watched armed expired) (htime : deadline ∈ expired) :
    armed.getLast? = some deadline := by
  rcases h.expired_cases with hnone | ⟨last, hlast, hone⟩
  · rw [hnone] at htime
    cases htime
  · rw [hone] at htime
    exact List.mem_singleton.mp htime ▸ hlast

/-- A request that does not touch the timeout, and takes nothing off the agenda. -/
theorem Watched.of_subset (h : w.Watched armed expired) (htimeout : w'.timeout = w.timeout)
    (hagenda : w.agenda.toList ⊆ w'.agenda.toList) : w'.Watched armed expired := by
  cases h with
  | disarmed h => exact .disarmed (htimeout.trans h)
  | armed sorted h => exact .armed sorted (h.of_subset htimeout hagenda)
  | fired sorted h => exact .fired sorted (htimeout.trans h)

theorem Watched.schedule (h : w.Watched armed expired) (m : Message) :
    (w.respond (w.schedule m)).2.Watched armed expired := by
  rcases w.respond_schedule m with heq | heq <;> rw [heq]
  · exact h
  · exact h.of_subset rfl (subset_put _ _ _)

theorem Watched.armTimeout (h : w.Watched armed expired) {after : Span}
    (hok : w.armTimeout after = .ok w') : w'.Watched (armed ++ [w.now + after]) expired := by
  obtain ⟨hnotFired, hlater⟩ := accepted_of_armTimeout hok
  have hawaits := awaits_of_armTimeout hok
  cases h with
  | disarmed h => exact .armed (List.pairwise_singleton _ _) hawaits
  | fired sorted h => exact absurd h hnotFired
  | @armed earlier deadline sorted h =>
    have hlater := hlater deadline h.armed
    refine .armed (List.pairwise_append.mpr ⟨sorted, List.pairwise_singleton _ _, ?_⟩) hawaits
    intro a ha b hb
    obtain rfl := List.mem_singleton.mp hb
    -- The last deadline is the latest of those before, and the new one is no earlier.
    rcases List.mem_append.mp ha with ha | ha
    · exact le_trans ((List.pairwise_append.mp sorted).2.2 a ha deadline (by simp)) hlater
    · obtain rfl := List.mem_singleton.mp ha
      exact hlater

theorem Watched.next (h : w.Watched armed expired) (htimely : w.Timely) :
    w.next.2.Watched armed (expired ++ (w.next.1.bind (·.expiry?)).toList) := by
  rcases htimely.timeout_next with ⟨hnone, hsame⟩ | ⟨deadline, harmed, hdelivered, hfired, -⟩
  · rw [hnone, Option.toList_none, List.append_nil]
    cases h with
    | disarmed h => exact .disarmed (hsame.trans h)
    | fired sorted h => exact .fired sorted (hsame.trans h)
    | armed sorted h =>
      rcases h.next with ⟨m, -, hnext⟩ | ⟨time, htime⟩
      · exact .armed sorted hnext
      · rw [htime] at hnone
        cases hnone
  · rw [hdelivered]
    cases h with
    | disarmed h => cases h.symm.trans harmed
    | fired sorted h => cases h.symm.trans harmed
    | armed sorted h =>
      obtain rfl := TimeoutState.armed.inj (h.armed.symm.trans harmed)
      exact .fired sorted hfired

theorem expiry?_respond (w : World) (answer : Except Refusal World) :
    (w.respond answer).1.expiry? = none := by
  cases answer <;> rfl

/-- Every request keeps watch. -/
theorem Watched.serve (h : w.Watched armed expired) (htimely : w.Timely) (q : Request) :
    (w.serve q).2.Watched (armed ++ w.arms q) (expired ++ (w.serve q).1.expiry?.toList) := by
  have hquiet {q : Request} (harms : w.arms q = []) (hexpiry : (w.serve q).1.expiry? = none)
      (hserve : (w.serve q).2.Watched armed expired) :
      (w.serve q).2.Watched (armed ++ w.arms q) (expired ++ (w.serve q).1.expiry?.toList) := by
    rw [harms, hexpiry, Option.toList_none, List.append_nil, List.append_nil]
    exact hserve
  cases q with
  | addMote mote =>
    refine hquiet rfl (expiry?_respond w _) ?_
    rw [World.serve]
    rcases w.respond_addMote mote with heq | heq <;> rw [heq]
    · exact h
    · exact h.of_subset rfl (List.Subset.refl _)
  | schedule m => exact hquiet rfl (expiry?_respond w _) (h.schedule m)
  | print time id text =>
    exact hquiet rfl (expiry?_respond w _) (h.schedule ⟨time, .mote id, text⟩)
  | armTimeout after =>
    cases ha : w.armTimeout after with
    | error cause =>
      refine hquiet (by rw [arms, ha]) (expiry?_respond w _) ?_
      rw [World.serve, ha]
      exact h
    | ok w' =>
      rw [World.serve, expiry?_respond, Option.toList_none, List.append_nil, arms, ha]
      exact h.armTimeout ha
  | generate delay payload => exact hquiet rfl rfl (h.of_subset rfl (subset_put w _ _))
  | next =>
    have hnext := h.next htimely
    rwa [← List.append_nil armed] at hnext
  | broadcast mode bindings => exact hquiet rfl rfl (h.of_subset rfl (List.Subset.refl _))

theorem Watched.serveAll (h : w.Watched armed expired) (htimely : w.Timely)
    (requests : List Request) : (w.serveAll requests).2.Watched (armed ++ w.armedAll requests)
      (expired ++ w.expiries requests) := by
  induction requests generalizing w armed expired with
  | nil =>
    rw [armedAll, List.append_nil]
    exact (List.append_nil expired).symm ▸ h
  | cons q requests ih =>
    have hall := ih (h.serve htimely q) (htimely.serve q)
    have hexpired : w.expiries (q :: requests) =
        (w.serve q).1.expiry?.toList ++ (w.serve q).2.expiries requests := by
      simp only [expiries, World.serveAll, List.filterMap_cons]
      cases (w.serve q).1.expiry? <;> rfl
    rw [hexpired, armedAll, ← List.append_assoc, ← List.append_assoc]
    exact hall

/-- Deliveries that are taken one after the other arm nothing. -/
theorem armedAll_next (w : World) (n : Nat) : w.armedAll (List.replicate n .next) = [] := by
  induction n generalizing w with
  | zero => rfl
  | succ n ih => exact ih _

theorem armedAll_append (w : World) (front back : List Request) :
    w.armedAll (front ++ back) = w.armedAll front ++ (w.serveAll front).2.armedAll back := by
  induction front generalizing w with
  | nil => rfl
  | cons q front ih =>
    rw [List.cons_append, armedAll, armedAll, ih, List.append_assoc]
    rfl

/-- When the agenda has run dry, the timeout is delivered if it was ever armed. -/
theorem Watched.expired_of_empty (h : w.Watched armed expired) (hempty : w.agenda.toList = [])
    (hlast : armed.getLast? = some deadline) : expired = [deadline] := by
  cases h with
  | disarmed h => cases hlast
  | fired sorted h => rw [← Option.some.inj (List.getLast?_concat.symm.trans hlast)]
  | armed sorted h =>
    obtain ⟨i, hi, -⟩ := h.pending
    rw [hempty] at hi
    cases hi

/-! A history, seen from one of its answers. -/

theorem responses_cons (w : World) (q : Request) (requests : List Request) :
    (w.serveAll (q :: requests)).1 = (w.serve q).1 :: ((w.serve q).2.serveAll requests).1 := rfl

/-- Every answer is the answer to a request, and those before and after it answer the requests
before and after that. -/
theorem exists_of_responses_eq {requests : List Request} {before after : List Response}
    {response : Response} (h : (w.serveAll requests).1 = before ++ response :: after) :
    ∃ front q back, requests = front ++ q :: back ∧ (w.serveAll front).1 = before ∧
      ((w.serveAll front).2.serve q).1 = response ∧
      (((w.serveAll front).2.serve q).2.serveAll back).1 = after := by
  induction requests generalizing w before with
  | nil => simp [serveAll] at h
  | cons q requests ih =>
    rw [responses_cons] at h
    cases before with
    | nil =>
      obtain ⟨hfirst, hrest⟩ := List.cons.inj h
      exact ⟨[], q, requests, rfl, rfl, hfirst, hrest⟩
    | cons first before =>
      obtain ⟨hfirst, hrest⟩ := List.cons.inj h
      obtain ⟨front, q', back, rfl, hbefore, hresponse, hafter⟩ := ih hrest
      refine ⟨q :: front, q', back, rfl, ?_, hresponse, hafter⟩
      rw [responses_cons, hfirst, hbefore]

theorem eq_next_of_delivery {q : Request} {d? : Option Delivery}
    (h : (w.serve q).1 = .delivery d?) : q = .next := by
  have hrespond (answer : Except Refusal World) : (w.respond answer).1 ≠ .delivery d? := by
    cases answer <;> exact Response.noConfusion
  cases q with
  | next => rfl
  | addMote mote => exact absurd h (hrespond _)
  | schedule m => exact absurd h (hrespond _)
  | print time id text => exact absurd h (hrespond _)
  | armTimeout after => exact absurd h (hrespond _)
  | generate delay payload => cases h
  | broadcast mode bindings => cases h

/-- No message is delivered on the wrong side of the timeout. -/
theorem Timely.messages_beside_expiry (h : w.Timely) {requests : List Request}
    {before after : List Response} {time : Instant}
    (hresponses : (w.serveAll requests).1 =
      before ++ .delivery (some (.timeout time)) :: after) :
    (∀ m ∈ before.filterMap Response.message?, m.time ≤ time) ∧
      ∀ m ∈ after.filterMap Response.message?, time ≤ m.time := by
  obtain ⟨front, q, back, rfl, rfl, hresponse, rfl⟩ := exists_of_responses_eq hresponses
  obtain rfl := eq_next_of_delivery hresponse
  have hfront := h.serveAll front
  have hdelivered : (w.serveAll front).2.next.1 = some (.timeout time) :=
    Response.delivery.inj hresponse
  have hnow : (w.serveAll front).2.next.2.now = time := by
    rcases hfront.timeout_next with ⟨hnone, -⟩ | ⟨deadline, -, hdeadline, -, hnow⟩
    · rw [hdelivered] at hnone
      cases hnone
    · rw [hdelivered] at hdeadline
      exact hnow.trans (Delivery.timeout.inj (Option.some.inj hdeadline)).symm
  constructor
  · intro m hm
    calc m.time ≤ (w.serveAll front).2.now := ((h.accounted_serveAll front).past m hm).2
      _ ≤ (w.serveAll front).2.next.2.now := hfront.accounted_next.clock
      _ = time := hnow
  · intro m hm
    exact hnow ▸ ((hfront.next.accounted_serveAll back).past m hm).1

/-- The timeout of the world `w` while it serves `requests`. -/
structure Punctual (w : World) (requests : List Request) : Prop where
  /-- It is armed for later and later deadlines. -/
  armed : (w.armedAll requests).Pairwise (· ≤ ·)
  /-- It is refused only once it has fired, or if it would come before the last deadline. -/
  refused_iff : ∀ after cause,
    ((w.serveAll requests).2.serve (.armTimeout after)).1 = .refused cause ↔
      w.expiries requests ≠ [] ∧ cause = .timeoutFired ∨
      w.expiries requests = [] ∧
        ∃ deadline, (w.armedAll requests).getLast? = some deadline ∧
          (w.serveAll requests).2.now + after < deadline ∧
          cause = .timeoutEarlier deadline ((w.serveAll requests).2.now + after)
  /-- What is refused changes nothing. -/
  refused : ∀ after cause,
    ((w.serveAll requests).2.serve (.armTimeout after)).1 = .refused cause →
      ((w.serveAll requests).2.serve (.armTimeout after)).2 = (w.serveAll requests).2
  /-- It is armed as long as it was armed before and not delivered, for its last deadline. -/
  armed_iff : ∀ deadline, (w.serveAll requests).2.timeout = .armed deadline ↔
    w.expiries requests = [] ∧ (w.armedAll requests).getLast? = some deadline
  once : (w.expiries requests).length ≤ 1
  /-- It is delivered at the last deadline, and no message on its wrong side. -/
  expiry : ∀ before time after,
    (w.serveAll requests).1 = before ++ .delivery (some (.timeout time)) :: after →
      (w.armedAll requests).getLast? = some time ∧
      (∀ m ∈ before.filterMap Response.message?, m.time ≤ time) ∧
      ∀ m ∈ after.filterMap Response.message?, time ≤ m.time
  /-- The time of a delivered message is the one at which it was due when it was accepted. -/
  due : ∀ m ∈ (w.serveAll requests).1.filterMap Response.message?, m ∈ w.acceptedAll requests
  /-- As long as it is armed it will be delivered, if only enough deliveries are taken. -/
  drained : ∀ deadline, (w.serveAll requests).2.timeout = .armed deadline →
    ∀ n, (w.serveAll requests).2.agenda.toList.length ≤ n →
      (w.serveAll requests).2.expiries (List.replicate n .next) = [deadline]

/-- The timeout of a new world is punctual whatever is asked of the world. -/
theorem punctual (seed : UInt64) (count : Nat) (requests : List Request) :
    Punctual (withMotes seed count) requests := by
  have htimely := timely_withMotes seed count
  have hwatched := (Watched.disarmed (w := withMotes seed count) rfl).serveAll htimely requests
  rw [List.nil_append, List.nil_append] at hwatched
  have haccounted := htimely.accounted_serveAll requests
  have hpending : (withMotes seed count).pending = [] := by
    simp [pending, withMotes, toList, Heap.items]
  generalize withMotes seed count = w at *
  constructor
  case armed => exact hwatched.sorted
  case refused_iff =>
    intro after cause
    have hserve : ((w.serveAll requests).2.serve (.armTimeout after)).1 = .refused cause ↔
        (w.serveAll requests).2.armTimeout after = .error cause := by
      rw [World.serve]
      cases (w.serveAll requests).2.armTimeout after <;> simp [respond]
    rw [hserve, armTimeout_eq_error_iff, hwatched.fired_iff]
    simp only [hwatched.armed_iff, and_assoc, exists_and_left]
  case refused =>
    intro after cause h
    rw [World.serve] at h ⊢
    cases ha : (w.serveAll requests).2.armTimeout after with
    | error cause' => rfl
    | ok w' =>
      rw [ha] at h
      cases h
  case armed_iff => exact fun deadline => hwatched.armed_iff
  case once =>
    rcases hwatched.expired_cases with hnone | ⟨deadline, -, hone⟩
    · simp [hnone]
    · simp [hone]
  case expiry =>
    intro before time after h
    have hmem : time ∈ w.expiries requests := by
      simp [expiries, h, Response.expiry?, Delivery.expiry?]
    exact ⟨hwatched.getLast?_of_mem hmem, htimely.messages_beside_expiry h⟩
  case due =>
    intro m hm
    have hmem : m ∈ (w.pending ++ w.acceptedAll requests).filter (·.time = m.time) := by
      rw [← haccounted.each m.time]
      simp [hm]
    simpa [hpending] using List.mem_of_mem_filter hmem
  case drained =>
    intro deadline harmed n hn
    obtain ⟨hnone, hlast⟩ := hwatched.armed_iff.mp harmed
    have hdrained := hwatched.serveAll (htimely.serveAll requests) (List.replicate n .next)
    rw [hnone, armedAll_next, List.append_nil, List.nil_append] at hdrained
    exact hdrained.expired_of_empty (toList_drained hn) hlast

end World

end MoteBench
