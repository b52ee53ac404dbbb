import MoteBench.Proofs.World.Timeouts

/-!
A world that is paced: the timeout of a run is armed, and the script has one cue of its own on the
agenda. What is delivered next is the cue if it is due before the timeout, or the timeout if it is
not, or a message that is not the cue.
-/
namespace MoteBench

open Memory Agenda

namespace World

/-- Requests that set a world up for a run. -/
def Request.prepares : Request → Bool
  | .addMote _ | .schedule _ | .print .. => true
  | _ => false

/-- Worlds that have been set up for a run and nothing else. -/
inductive Prepared : World → Prop where
  | start (seed : UInt64) (count : Nat) (h : count < UInt32.size) : Prepared (withMotes seed count)
  | serve {w : World} (h : Prepared w) (q : Request) (hq : q.prepares) : Prepared (w.serve q).2

theorem Prepared.reachable {w : World} (h : w.Prepared) : w.Reachable := by
  induction h with
  | start seed count hcount => exact .start seed count hcount
  | serve _ q _ ih => exact ih.serve q

/-- No time has passed, and nothing was asked for that a run asks for. -/
structure Fresh (w : World) : Prop where
  now : w.now = .zero
  lastGenerated : w.lastGenerated = .zero
  timeout : w.timeout = .disarmed

theorem Fresh.schedule {w : World} (h : w.Fresh) (m : Message) :
    (w.respond (w.schedule m)).2.Fresh := by
  rcases w.respond_schedule m with heq | heq <;> rw [heq]
  · exact h
  · exact ⟨h.now, h.lastGenerated, h.timeout⟩

theorem Prepared.fresh {w : World} (h : w.Prepared) : w.Fresh := by
  induction h with
  | start seed count hcount => exact ⟨rfl, rfl, rfl⟩
  | @serve w _ q hq ih =>
    cases q with
    | addMote mote =>
      rw [World.serve]
      rcases w.respond_addMote mote with heq | heq <;> rw [heq]
      · exact ih
      · exact ⟨ih.now, ih.lastGenerated, ih.timeout⟩
    | schedule m => exact ih.schedule m
    | print time id text => exact ih.schedule ⟨time, .mote id, text⟩
    | _ => cases hq

theorem pairwise_sequence (a : Agenda Pending) : a.toList.Pairwise (·.sequence ≠ ·.sequence) :=
  (a.toList_perm.pairwise_iff fun h => h.symm).mpr a.distinct

/-- The item `t` is the one timeout on the agenda, and it will be delivered when it comes up. All
messages on the agenda satisfy `p`. -/
structure Timed (w : World) (p : String → Prop) (t : Item Pending) : Prop where
  timely : w.Timely
  armed : w.timeout = .armed t.due
  pending : t ∈ w.agenda.toList
  payload : t.payload = .timeout
  only : ∀ i ∈ w.agenda.toList, i.payload = .timeout → i = t
  texts : ∀ i ∈ w.agenda.toList, ∀ source text, i.payload = .message source text → p text

/-- No cue of the script is to come. Others may have its text, but they are due after the timeout. -/
structure Quiet (w : World) (p : String → Prop) (t : Item Pending) (cue : String) : Prop
    extends Timed w p t where
  late : ∀ i ∈ w.agenda.toList, ∀ source, i.payload = .message source cue →
    source ≠ .script ∧ t.due < i.due

/-- The item `c` is the one cue of the script that is to come. -/
structure Paced (w : World) (p : String → Prop) (t c : Item Pending) (cue : String) : Prop
    extends Timed w p t where
  cue_pending : c ∈ w.agenda.toList
  cue_payload : c.payload = .message .script cue
  /-- The cue was asked for after the timeout. -/
  behind : t.sequence < c.sequence
  late : ∀ i ∈ w.agenda.toList, ∀ source, i.payload = .message source cue →
    i = c ∨ source ≠ .script ∧ t.due < i.due
  last : w.lastGenerated ≤ c.due

variable {w : World} {p : String → Prop} {t c i : Item Pending} {b : Agenda Pending} {cue : String}

theorem Timed.took (h : w.Timed p t) (hi : w.agenda.toList = i :: b.toList) (hne : i ≠ t) :
    (w.took i b).Timed p t where
  timely := (h.timely.took hi).1
  armed := h.armed
  pending := by
    have hmem := h.pending
    rw [hi] at hmem
    exact (List.mem_cons.mp hmem).resolve_left hne.symm
  payload := h.payload
  only j hj := h.only j (by rw [hi]; exact List.mem_cons_of_mem i hj)
  texts j hj := h.texts j (by rw [hi]; exact List.mem_cons_of_mem i hj)

/-- What stands first precedes all others. -/
theorem precedes_of_cons (hi : w.agenda.toList = i :: b.toList) {j : Item Pending}
    (hj : j ∈ w.agenda.toList) : i.Precedes j := by
  have hsorted := w.agenda.pairwise_toList
  rw [hi] at hj hsorted
  rcases List.mem_cons.mp hj with rfl | hj
  · exact .refl j
  · exact (List.pairwise_cons.mp hsorted).1 j hj

theorem due_le_of_cons (hi : w.agenda.toList = i :: b.toList) {j : Item Pending}
    (hj : j ∈ w.agenda.toList) : i.due ≤ j.due := by
  rcases precedes_of_cons hi hj with hlt | ⟨heq, -⟩
  · exact le_of_lt hlt
  · exact le_of_eq heq

theorem Paced.took (h : w.Paced p t c cue) (hi : w.agenda.toList = i :: b.toList) (ht : i ≠ t)
    (hc : i ≠ c) : (w.took i b).Paced p t c cue where
  toTimed := h.toTimed.took hi ht
  cue_pending := by
    have hmem := h.cue_pending
    rw [hi] at hmem
    exact (List.mem_cons.mp hmem).resolve_left hc.symm
  cue_payload := h.cue_payload
  behind := h.behind
  late j hj := h.late j (by rw [hi]; exact List.mem_cons_of_mem i hj)
  last := h.last

/-- The cue can only come up before the time of the timeout. -/
theorem Paced.took_cue (h : w.Paced p t c cue) (hi : w.agenda.toList = c :: b.toList) :
    c.due < t.due ∧ (w.took c b).Quiet p t cue := by
  have hne : c ≠ t := by
    rintro rfl
    cases h.payload.symm.trans h.cue_payload
  have hbefore : c.due < t.due := by
    rcases precedes_of_cons hi h.pending with hlt | ⟨-, hle⟩
    · exact hlt
    · exact absurd h.behind (Nat.not_lt_of_le hle)
  refine ⟨hbefore, h.toTimed.took hi hne, fun j hj source hp => ?_⟩
  have hdistinct := pairwise_sequence w.agenda
  rw [hi] at hdistinct
  refine (h.late j (by rw [hi]; exact List.mem_cons_of_mem c hj) source hp).resolve_left ?_
  rintro rfl
  exact (List.pairwise_cons.mp hdistinct).1 j hj rfl

/-- The next delivery in a paced world. -/
theorem Paced.next (h : w.Paced p t c cue) :
    (∃ m, w.next.1 = some (.message m) ∧ m.text ≠ cue ∧ p m.text ∧ w.next.2.Paced p t c cue) ∨
    (c.due < t.due ∧ w.next.1 = some (.message ⟨c.due, .script, cue⟩) ∧ w.next.2.Quiet p t cue ∧
      w.next.2.now = c.due ∧ w.next.2.lastGenerated = w.lastGenerated) ∨
    (t.due ≤ c.due ∧ w.next.1 = some (.timeout t.due)) := by
  cases hl : w.agenda.toList with
  | nil =>
    have hpending := h.pending
    rw [hl] at hpending
    cases hpending
  | cons i rest =>
    obtain ⟨b, rfl, hnext⟩ := next_of_cons hl
    have hi : i ∈ w.agenda.toList := by simp [hl]
    have hdue : max w.now i.due = i.due := (h.timely.took hl).2
    cases hp : i.payload with
    | timeout =>
      obtain rfl := h.only i hi hp
      rw [hnext, hp]
      dsimp only
      rw [if_pos h.armed, hdue]
      exact .inr (.inr ⟨due_le_of_cons hl h.cue_pending, rfl⟩)
    | message source text =>
      have ht : i ≠ t := by
        rintro rfl
        cases h.payload.symm.trans hp
      rw [hnext, hp]
      by_cases hc : i = c
      · obtain ⟨hbefore, hquiet⟩ := h.took_cue (hc ▸ hl)
        obtain ⟨rfl, rfl⟩ := Pending.message.inj (hp.symm.trans (hc ▸ h.cue_payload))
        subst hc
        rw [hdue]
        exact .inr (.inl ⟨hbefore, rfl, hquiet, hdue, rfl⟩)
      · refine .inl ⟨_, rfl, fun htext => ?_, h.texts i hi source text hp, h.took hl ht hc⟩
        obtain rfl : text = cue := htext
        obtain ⟨-, hlate⟩ := (h.late i hi source hp).resolve_left hc
        exact absurd (due_le_of_cons hl h.pending) (not_le_of_gt hlate)

/-- A quiet world becomes a paced one when the cue is asked for. -/
theorem Quiet.generate (h : w.Quiet p t cue) (hcue : p cue) {delay : Span}
    (hlast : w.lastGenerated ≤ w.now + delay) :
    ∃ c, c.due = w.now + delay ∧ (w.generate delay cue).Paced p t c cue := by
  have hdue : max (w.now + delay) w.lastGenerated = w.now + delay := max_eq_left hlast
  have hitems {i : Item Pending} : i ∈ (w.generate delay cue).agenda.toList ↔
      i ∈ w.agenda.toList ∨ i = ⟨w.now + delay, w.agenda.next, .message .script cue⟩ := by
    rw [← hdue]
    exact mem_toList_push
  refine ⟨⟨w.now + delay, w.agenda.next, .message .script cue⟩, rfl,
    ⟨h.timely.serve (.generate delay cue), h.armed, hitems.mpr (.inl h.pending), h.payload, ?_, ?_⟩,
    hitems.mpr (.inr rfl), rfl, sequence_lt_next h.pending, ?_, le_of_eq hdue⟩
  · intro i hi hp
    rcases hitems.mp hi with hi | rfl
    · exact h.only i hi hp
    · cases hp
  · intro i hi source text hp
    rcases hitems.mp hi with hi | rfl
    · exact h.texts i hi source text hp
    · exact (Pending.message.inj hp).2 ▸ hcue
  · intro i hi source hp
    rcases hitems.mp hi with hi | rfl
    · exact .inr (h.late i hi source hp)
    · exact .inl rfl

theorem Quiet.withNodes (h : w.Quiet p t cue) (motes : List Mote) :
    ({ w with motes } : World).Quiet p t cue :=
  ⟨⟨h.timely, h.armed, h.pending, h.payload, h.only, h.texts⟩, h.late⟩

/-- A world without timeouts is quiet once one is armed, if no message of the script has the text of
the cue and no other comes in time. -/
theorem quiet_armed (htimely : w.Timely) (hnone : ∀ e ∈ w.docket.entries, e.2 ≠ .timeout)
    {after : Span} (htexts : ∀ m ∈ w.pending, p m.text)
    (hlate : ∀ m ∈ w.pending, m.text = cue → m.source ≠ .script ∧ w.now + after < m.time) :
    ∃ t, t.due = w.now + after ∧
      ({ w.put (w.now + after) .timeout with timeout := .armed (w.now + after) } : World).Quiet p t
        cue := by
  have hitems {i : Item Pending} : i ∈ (w.put (w.now + after) .timeout).agenda.toList ↔
      i ∈ w.agenda.toList ∨ i = ⟨w.now + after, w.agenda.next, .timeout⟩ := mem_toList_push
  have hmem {i : Item Pending} (hi : i ∈ w.agenda.toList) {source : Source} {text : String}
      (hp : i.payload = .message source text) : ⟨i.due, source, text⟩ ∈ w.pending :=
    List.mem_filterMap.mpr ⟨i, hi, by simp [messageOf, hp]⟩
  refine ⟨⟨w.now + after, w.agenda.next, .timeout⟩, rfl,
    ⟨htimely.put (Instant.le_add _ _) _, rfl, hitems.mpr (.inr rfl), rfl, ?_, ?_⟩, ?_⟩
  · intro i hi hp
    rcases hitems.mp hi with hi | rfl
    · exact absurd hp (hnone (i.due, i.payload) (List.mem_map_of_mem hi))
    · rfl
  · intro i hi source text hp
    rcases hitems.mp hi with hi | rfl
    · exact htexts _ (hmem hi hp)
    · cases hp
  · intro i hi source hp
    rcases hitems.mp hi with hi | rfl
    · exact hlate _ (hmem hi hp) rfl
    · cases hp

/-- At most one cue of the script is to come in a paced world. -/
theorem Paced.countP_le_one (h : w.Paced p t c cue) :
    w.pending.countP (fun m => m.source = .script ∧ m.text = cue) ≤ 1 := by
  have hnodup : w.agenda.toList.Nodup := (pairwise_sequence w.agenda).imp fun hne heq =>
    hne (congrArg Item.sequence heq)
  rw [pending, List.countP_filterMap]
  refine le_trans (List.countP_mono_left fun i hi hm => ?_) (List.nodup_iff_count_le_one.mp hnodup c)
  cases hp : i.payload with
  | timeout => simp [messageOf, hp] at hm
  | message source text =>
    obtain ⟨rfl, rfl⟩ : source = .script ∧ text = cue := by simpa [messageOf, hp] using hm
    rcases h.late i hi _ hp with rfl | ⟨hother, -⟩
    · simp
    · exact absurd rfl hother

end World

end MoteBench
