import MoteBench.Proofs.World.Deadline
import MoteBench.Proofs.World.Generated

/-!
How long a world lets a delay last. The clock counts microseconds and a delay has nanoseconds, of
which those beyond the last whole microsecond are dropped. So a delay that has such a rest can end
before its time, by less than a microsecond, and no other delay does.
-/
namespace MoteBench

open Memory Agenda

/-- What is left of a delay that begins at `clock` and ends at `time`. -/
structure Span.Spent (delay : Span) (clock time : Instant) : Prop where
  /-- All of it but a part of a microsecond has passed. -/
  nearly : delay.nanos < (time - clock).nanos + 1000
  /-- It is cut short if it ends as soon as it can and has a part of a microsecond to lose. -/
  short_iff : (time - clock).nanos < delay.nanos ↔ time = clock + delay ∧ ¬ 1000 ∣ delay.nanos

theorem Span.spent_of_le {delay : Span} {clock time : Instant}
    (hroom : clock.micros * 1000 + delay.nanos < UInt64.size * 1000) (h : clock + delay ≤ time) :
    delay.Spent clock time := by
  have hend : (clock + delay).micros = clock.micros + delay.nanos / 1000 := by
    rw [Instant.micros_add, Span.micros]
    omega
  have hpassed : (time - clock).nanos = (time.micros - clock.micros) * 1000 := rfl
  have hle := Instant.le_iff.mp h
  constructor
  case nearly => omega
  case short_iff =>
    rw [hpassed, Instant.ext_iff]
    omega

namespace World

variable {w w' : World} {delay : Span} {later : List Request}

/-! A message that is asked for stays one of those that were generated. -/

/-- The item by which a world delivers the message that it is asked for. -/
def ordered (w : World) (delay : Span) (payload : String) : Item Pending :=
  ⟨max (w.now + delay) w.lastGenerated, w.agenda.next, .message .script payload⟩

theorem Timely.queued_generate (h : w.Timely) (delay : Span) (payload : String) :
    (w.generate delay payload).Queued [w.ordered delay payload] [] := by
  have hfresh : w.Queued [] [] := ⟨h, by simp, by simp, by simp, by simp, .nil⟩
  have hqueued := hfresh.generate delay payload
  rwa [generates_generate, List.nil_append] at hqueued

/-- What was generated is delivered or pending, and not both. -/
theorem Queued.count_eq_one {generated delivered : List (Item Pending)}
    (h : w.Queued generated delivered) {item : Item Pending} (hitem : item ∈ generated) :
    (delivered ++ w.agenda.toList).count item = 1 := by
  have hnodup : generated.Nodup := h.numbers.imp fun hlt heq => hlt.ne (congrArg Item.sequence heq)
  have hcount : ((delivered ++ w.agenda.toList).filter (· ∈ generated)).count item =
      (delivered ++ w.agenda.toList).count item :=
    List.count_filter (by simpa using hitem)
  rw [← hcount, h.inTurn]
  exact List.count_eq_one_of_mem hnodup hitem

/-- A timeout that was armed before, and is armed once more, has the last of its deadlines to come. -/
theorem Watched.serveAll_of_armTimeout {armed expired : List Instant} (h : w.Watched armed expired)
    (htimely : w.Timely) (hok : w.armTimeout delay = .ok w') (hlater : w'.armedAll later = []) :
    (w'.serveAll later).2.Watched (armed ++ [w.now + delay]) (w'.expiries later) := by
  have hnone : expired = [] := by
    by_contra hexpired
    exact (accepted_of_armTimeout hok).1 (h.fired_iff.mpr hexpired)
  have hserved : (w.serve (.armTimeout delay)).2 = w' := by
    rw [World.serve, hok]
    rfl
  have hwatched := (h.armTimeout hok).serveAll (hserved ▸ htimely.serve _) later
  rwa [hlater, hnone, List.append_nil, List.nil_append] at hwatched

/-- When the world `w` ends a delay that begins at its clock, whatever it is asked for later. -/
structure Patient (w : World) (delay : Span) : Prop where
  /-- A message is delivered once, at a time by which its delay is spent. -/
  message : ∀ payload, ∃ item : Item Pending,
    w.generates (.generate delay payload) = [item] ∧
    messageOf item = some ⟨item.due, .script, payload⟩ ∧ delay.Spent w.now item.due ∧
    ∀ later,
      ((w.generate delay payload).deliveredAll later ++
        ((w.generate delay payload).serveAll later).2.agenda.toList).count item = 1 ∧
      ((w.generate delay payload).serveAll later).1.filterMap Response.message? =
        ((w.generate delay payload).deliveredAll later).filterMap messageOf ∧
      ∀ n, ((w.generate delay payload).serveAll later).2.agenda.toList.length ≤ n →
        item ∈ (w.generate delay payload).deliveredAll (later ++ List.replicate n .next)
  /-- The timeout is delivered when its delay is spent, if it is not armed again. -/
  timeout : ∀ w', w.armTimeout delay = .ok w' → delay.Spent w.now (w.now + delay) ∧
    ∀ later, w'.armedAll later = [] → (∀ time ∈ w'.expiries later, time = w.now + delay) ∧
      ∀ n, (w'.serveAll later).2.agenda.toList.length ≤ n →
        w'.expiries (later ++ List.replicate n .next) = [w.now + delay]

/-- A world that was asked for anything has patience for every delay that its clock has room for, up
to the part of a microsecond that the clock cannot count. -/
theorem delays_kept_to_the_microsecond (seed : UInt64) (count : Nat) (requests : List Request)
    (delay : Span)
    (hroom : ((withMotes seed count).serveAll requests).2.now.micros * 1000 + delay.nanos <
      UInt64.size * 1000) :
    ((withMotes seed count).serveAll requests).2.Patient delay := by
  have hnew := timely_withMotes seed count
  have htimely := hnew.serveAll requests
  have hwatched := (Watched.disarmed (w := withMotes seed count) rfl).serveAll hnew requests
  generalize ((withMotes seed count).serveAll requests).2 = w at *
  constructor
  case message =>
    intro payload
    have hqueued := htimely.queued_generate delay payload
    refine ⟨w.ordered delay payload, w.generates_generate delay payload, rfl,
      Span.spent_of_le hroom (le_max_left _ _), fun later => ?_⟩
    have hmem : w.ordered delay payload ∈
        [w.ordered delay payload] ++ (w.generate delay payload).generatedAll later := by simp
    refine ⟨(hqueued.serveAll later).count_eq_one hmem, hqueued.timely.messages_serveAll later,
      fun n hn => ?_⟩
    have hall := (hqueued.serveAll (later ++ List.replicate n .next)).mem (i := w.ordered delay payload)
      (by simp)
    rw [serveAll_append, toList_drained hn, List.append_nil] at hall
    exact hall
  case timeout =>
    intro w' hok
    refine ⟨Span.spent_of_le hroom le_rfl, fun later hlater => ?_⟩
    constructor
    · intro time htime
      have hgiven := (hwatched.serveAll_of_armTimeout htimely hok hlater).getLast?_of_mem htime
      exact Option.some.inj (hgiven.symm.trans List.getLast?_concat)
    · intro n hn
      have hnexts : w'.armedAll (later ++ List.replicate n .next) = [] := by
        rw [armedAll_append, hlater, armedAll_next, List.append_nil]
      have hdrained : (w'.serveAll (later ++ List.replicate n .next)).2.agenda.toList = [] := by
        rw [serveAll_append]
        exact toList_drained hn
      exact (hwatched.serveAll_of_armTimeout htimely hok hnexts).expired_of_empty hdrained
        List.getLast?_concat

/-- The delay has half a microsecond to lose, and begins when the clock has moved. -/
theorem delays_kept_to_the_microsecond_after_delivery :
    let w := ((withMotes 1 0).serveAll [.generate (.ofMillis 2) "up", .next]).2
    let delay : Span := ⟨1500⟩
    w.now.micros * 1000 + delay.nanos < UInt64.size * 1000 ∧ w.Patient delay := by
  intro w delay
  have hroom : w.now.micros * 1000 + delay.nanos < UInt64.size * 1000 := by decide +kernel
  exact ⟨hroom, delays_kept_to_the_microsecond 1 0 _ delay hroom⟩

/-- A microsecond and a half is over after one microsecond, for a message and for the timeout. -/
theorem delay_cut_short :
    let w := withMotes 1 0
    let delay : Span := ⟨1500⟩
    w.now.micros * 1000 + delay.nanos < UInt64.size * 1000 ∧
      (w.serveAll [.generate delay "go", .next]).1 =
        [.done, .delivery (some (.message ⟨.ofMicros 1, .script, "go"⟩))] ∧
      (w.serveAll [.armTimeout delay, .next]).1 =
        [.done, .delivery (some (.timeout (.ofMicros 1)))] ∧
      (Instant.ofMicros 1 - w.now).nanos < delay.nanos := by
  decide +kernel

end World

end MoteBench
