import MoteBench.Proofs.StableOrder
import MoteBench.Proofs.World.Deadline
import MoteBench.Proofs.World.Timeouts

/-!
Worlds that differ at most in the numbers on their agendas. Each request keeps them alike, and they
come about when the same messages are scheduled in different orders that agree on the messages of
each time.
-/
namespace MoteBench

open Memory Agenda

namespace World

/-- Nothing that a world is asked for tells them apart. -/
structure Alike (w w' : World) : Prop where
  seed : w'.seed = w.seed
  motes : w'.motes = w.motes
  docket : w'.docket = w.docket
  timely : w.Timely

variable {w w' : World}

theorem timely_iff : w.Timely ↔ ∀ e ∈ w.docket.entries, w.docket.now ≤ e.1 := by
  simp [Timely, docket]

namespace Alike

theorem right (h : w.Alike w') : w'.Timely := by
  rw [timely_iff, h.docket, ← timely_iff]
  exact h.timely

theorem now (h : w.Alike w') : w'.now = w.now := congrArg Docket.now h.docket

theorem timeout (h : w.Alike w') : w'.timeout = w.timeout := congrArg Docket.timeout h.docket

theorem armTimeout (h : w.Alike w') (after : Span) :
    (∃ cause, w.armTimeout after = .error cause ∧ w'.armTimeout after = .error cause) ∨
      ∃ v v', w.armTimeout after = .ok v ∧ w'.armTimeout after = .ok v' ∧ v.Alike v' := by
  have hcause (cause : Refusal) :
      w'.armTimeout after = .error cause ↔ w.armTimeout after = .error cause := by
    rw [armTimeout_eq_error_iff, armTimeout_eq_error_iff, h.timeout, h.now]
  cases ha : w.armTimeout after with
  | error cause => exact .inl ⟨cause, rfl, (hcause cause).mpr ha⟩
  | ok v =>
    cases ha' : w'.armTimeout after with
    | error cause => cases ((hcause cause).mp ha').symm.trans ha
    | ok v' =>
      refine .inr ⟨v, v', rfl, rfl, ?_⟩
      have hput := docket_put w (w.now + after) .timeout
      have hput' := docket_put w' (w.now + after) .timeout
      obtain rfl := armTimeout_eq_ok ha
      obtain rfl := armTimeout_eq_ok ha'
      rw [h.now]
      refine ⟨h.seed, h.motes, ?_, h.timely.put (Instant.le_add w.now after) .timeout⟩
      rw [h.docket, ← hput] at hput'
      exact congrArg (fun d : Docket => { d with timeout := .armed (w.now + after) }) hput'

theorem generate (h : w.Alike w') (delay : Span) (payload : String) :
    (w.generate delay payload).Alike (w'.generate delay payload) := by
  refine ⟨h.seed, h.motes, ?_, h.timely.serve (.generate delay payload)⟩
  rw [docket_generate, docket_generate, h.docket]

theorem next (h : w.Alike w') : w.next.2.Alike w'.next.2 ∧ w'.next.1 = w.next.1 := by
  have hsame : (w'.next.1, w'.next.2.docket) = (w.next.1, w.next.2.docket) := by
    rw [docket_next h.timely, docket_next h.right, h.docket]
  obtain ⟨hdelivery, hdocket⟩ := Prod.mk.inj hsame
  refine ⟨⟨?_, ?_, hdocket, h.timely.next⟩, hdelivery⟩
  · rw [seed_next, seed_next, h.seed]
  · rw [motes_next, motes_next, h.motes]

theorem withMotes (h : w.Alike w') (motes : List Mote) :
    { w with motes }.Alike { w' with motes } :=
  ⟨h.seed, rfl, congrArg (fun d : Docket => { d with motes := motes.map Mote.id }) h.docket,
    h.timely⟩

end Alike

/-- The world `w'` is `w` with `messages` on its agenda. -/
structure Scheduled (w : World) (messages : List Message) (w' : World) : Prop where
  frame : w' = { w with agenda := w'.agenda }
  timely : w.Timely → w'.Timely
  entries : ∀ t, w'.docket.entries.filter (·.1 = t) =
    (w.docket.entries ++ messages.map (·.entry)).filter (·.1 = t)

/-- A world schedules all messages from sources that it knows, at their times if none is over. -/
theorem scheduled_of_knows {messages : List Message} (hknown : ∀ m ∈ messages, w.knows m.source)
    (hdue : ∀ m ∈ messages, w.now ≤ m.time) :
    ∃ w', messages.foldlM schedule w = .ok w' ∧ Scheduled w messages w' := by
  induction messages generalizing w with
  | nil => exact ⟨w, rfl, rfl, id, by simp⟩
  | cons m messages ih =>
    obtain ⟨hm, hmessages⟩ := List.forall_mem_cons.mp hknown
    obtain ⟨hfirst, hlater⟩ := List.forall_mem_cons.mp hdue
    obtain ⟨w', hok, hframe, htimely, hentries⟩ :=
      ih (w := w.put m.time (.message m.source m.text)) hmessages hlater
    refine ⟨w', ?_, hframe, fun h => htimely (h.put hfirst _), fun t => ?_⟩
    · rw [List.foldlM_cons, schedule_of_knows hm, max_eq_left hfirst]
      exact hok
    · have hput : (w.docket.put m.time (.message m.source m.text)).entries.filter (·.1 = t) =
          (w.docket.entries ++ [m.entry]).filter (·.1 = t) :=
        StableOrder.filter_orderedInsert w.pairwise_entries m.entry t
      rw [hentries, docket_put, List.filter_append, hput, ← List.filter_append, List.append_assoc]
      rfl

/-- Only the order among messages of the same time makes a difference. -/
theorem Scheduled.alike {v v' : World} {messages messages' : List Message}
    (h : Scheduled w messages v) (h' : Scheduled w messages' v') (htimely : w.Timely)
    (hsame : ∀ t, messages'.filter (·.time = t) = messages.filter (·.time = t)) : v.Alike v' := by
  have hmessages (t : Instant) : (messages'.map (·.entry)).filter (·.1 = t) =
      (messages.map (·.entry)).filter (·.1 = t) := by
    rw [List.filter_map, List.filter_map]
    exact congrArg (List.map (·.entry)) (hsame t)
  have hentries : v'.docket.entries = v.docket.entries := by
    refine StableOrder.eq_of_filter_eq v'.pairwise_entries v.pairwise_entries fun t => ?_
    rw [h'.entries, h.entries, List.filter_append, List.filter_append, hmessages]
  have hdocket : v.docket = { w.docket with entries := v.docket.entries } :=
    congrArg docket h.frame
  have hdocket' : v'.docket = { w.docket with entries := v'.docket.entries } :=
    congrArg docket h'.frame
  refine ⟨?_, ?_, ?_, h.timely htimely⟩
  · rw [h.frame, h'.frame]
  · rw [h.frame, h'.frame]
  · rw [hdocket', hdocket, hentries]

end World

end MoteBench
