import MoteBench.Proofs.World.Deadline
import MoteBench.Proofs.World.Generated

/-!
The numbers that a world gives to the items on its agenda. Each message that is accepted and each
deadline for which the timeout is armed takes one number, and nothing else takes any. So it makes no
difference that a number has to fit into a word of 64 bits, unless there are more items than words.
-/
namespace MoteBench

open Agenda

/-- The number of an item in a word, where counting begins anew behind the last word. -/
def Agenda.Item.word {α : Type} (i : Item α) : UInt64 := .ofNat i.sequence

namespace World

/-- The number that is still to be given, in a word. -/
def nextWord (w : World) : UInt64 := .ofNat w.agenda.next

/-- How many items requests put on the agenda. -/
def putAll (w : World) (requests : List Request) : Nat :=
  (w.acceptedAll requests).length + (w.armedAll requests).length

/-- The word is counted up by one with each item, and what carries beyond it is lost. -/
theorem nextWord_put (w : World) (due : Instant) (p : Pending) :
    (w.put due p).nextWord = w.nextWord + 1 :=
  UInt64.ofNat_add w.agenda.next 1

theorem number_schedule (w : World) (m : Message) :
    (w.respond (w.schedule m)).2.agenda.next =
      w.agenda.next + (w.accepts (.schedule m)).length := by
  rw [accepts]
  cases hk : w.knows m.source with
  | true =>
    rw [schedule_of_knows hk]
    rfl
  | false =>
    obtain ⟨id, -, hrefused⟩ := schedule_of_not_knows hk
    rw [hrefused]
    rfl

theorem number_serve (w : World) (q : Request) : (w.serve q).2.agenda.next =
    w.agenda.next + ((w.accepts q).length + (w.arms q).length) := by
  cases q with
  | addMote mote =>
    rw [serve]
    rcases w.respond_addMote mote with heq | heq <;> rw [heq] <;> rfl
  | schedule m => exact w.number_schedule m
  | print time id text => exact w.number_schedule ⟨time, .mote id, text⟩
  | armTimeout after =>
    rw [serve, arms]
    cases ha : w.armTimeout after with
    | error cause => rfl
    | ok w' =>
      rw [armTimeout_eq_ok ha]
      rfl
  | generate delay payload => rfl
  | next => exact w.number_next
  | broadcast mode bindings => rfl

theorem number_serveAll (w : World) (requests : List Request) :
    (w.serveAll requests).2.agenda.next = w.agenda.next + w.putAll requests := by
  induction requests generalizing w with
  | nil => rfl
  | cons q requests ih =>
    have hrest : (w.serveAll (q :: requests)).2.agenda.next = _ := ih (w.serve q).2
    rw [hrest, number_serve, putAll, putAll, acceptedAll, armedAll, List.length_append,
      List.length_append]
    omega

/-- The numbers of a world in words, once `count` items were put on its agenda. -/
structure FitsWords (w : World) (count : Nat) : Prop where
  nextWord : w.nextWord.toNat = count
  word : ∀ i ∈ w.agenda.toList, i.word.toNat = i.sequence
  precedes_iff : ∀ i ∈ w.agenda.toList, ∀ j ∈ w.agenda.toList,
    i.Precedes j ↔ i.due < j.due ∨ i.due = j.due ∧ i.word ≤ j.word

/-- Below the number of words, items are numbered in words as they are without a bound. -/
theorem fitsWords (seed : UInt64) (motes : Nat) (requests : List Request)
    (h : (withMotes seed motes).putAll requests < UInt64.size) :
    ((withMotes seed motes).serveAll requests).2.FitsWords
      ((withMotes seed motes).putAll requests) := by
  have hnext : ((withMotes seed motes).serveAll requests).2.agenda.next =
      (withMotes seed motes).putAll requests :=
    ((withMotes seed motes).number_serveAll requests).trans (Nat.zero_add _)
  have hword : ∀ i ∈ ((withMotes seed motes).serveAll requests).2.agenda.toList,
      i.word.toNat = i.sequence := by
    intro i hi
    have hlt := sequence_lt_next hi
    exact UInt64.toNat_ofNat_of_lt' (by omega)
  constructor
  case nextWord =>
    rw [nextWord, hnext]
    exact UInt64.toNat_ofNat_of_lt' h
  case word => exact hword
  case precedes_iff =>
    intro i hi j hj
    rw [UInt64.le_iff_toNat_le, hword i hi, hword j hj]
    rfl

end World

end MoteBench
