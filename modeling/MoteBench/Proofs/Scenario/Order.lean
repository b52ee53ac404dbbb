import MoteBench.Proofs.Run.Bisimulation
import MoteBench.Proofs.World.Alike
import MoteBench.Scenario

/-!
The order in which a scenario lists its messages. It makes a difference only among messages of the
same time.
-/
namespace MoteBench

open Memory

namespace World

/-- A run cannot tell alike worlds apart. -/
theorem bisimulation : Simulator.Bisimulation Alike where
  now h := h.now
  seed h := h.seed
  nodes h := h.motes
  next h := h.next
  generate h delay payload := ⟨h.generate delay payload, rfl, rfl⟩
  withNodes h motes := h.withMotes motes
  armTimeout {w w'} h after := by
    rcases h.armTimeout after with ⟨cause, ha, ha'⟩ | ⟨v, v', ha, ha', halike⟩
    · simp only [Simulator.armTimeout, ha, ha']
      exact ⟨h, rfl, rfl⟩
    · simp only [Simulator.armTimeout, ha, ha']
      exact ⟨halike, rfl, congrArg (fun now => [Entry.timeoutArmed (now + after)]) h.now⟩

theorem foldlM_addMote {w w' : World} {motes : List Mote} (h : motes.foldlM addMote w = .ok w') :
    w' = { w with motes := w.motes ++ motes } := by
  induction motes generalizing w with
  | nil =>
    obtain rfl := Except.ok.inj h
    rw [List.append_nil]
  | cons mote motes ih =>
    rw [List.foldlM_cons] at h
    cases ha : w.addMote mote with
    | error cause =>
      rw [ha] at h
      cases h
    | ok v =>
      rw [ha] at h
      obtain rfl := addMote_eq_ok ha
      rw [ih h, List.append_assoc]
      rfl

end World

/-- The judgement does not go by what no request to the world can tell. -/
def Oracle.Blind (oracle : Oracle) : Prop :=
  ∀ w w' report, w.Alike w' → oracle w' report = oracle w report

namespace Scenario

/-- All motes of a scenario. -/
def nodes (s : Scenario) : List Mote := (World.withMotes s.seed s.motes).motes ++ s.extraMotes

/-- The sources from which a scenario may have messages. -/
def Knows (s : Scenario) : Source → Prop
  | .script => True
  | .mote id => id ∈ s.nodes.map (·.id)

theorem knows_of_nodes {s : Scenario} {w : World} (hw : w.motes = s.nodes) {source : Source}
    (h : s.Knows source) : w.knows source = true := by
  cases source with
  | script => rfl
  | mote id =>
    apply World.mem_motes_docket.mp
    change id ∈ w.motes.map (·.id)
    rw [hw]
    exact h

variable {s : Scenario} {messages : List Message}

/-- The plan starts in alike worlds. -/
theorem setting_cases (hknown : ∀ m ∈ s.messages, s.Knows m.source)
    (hsame : ∀ t, messages.filter (·.time = t) = s.messages.filter (·.time = t)) :
    (∃ cause, s.setting = .error cause ∧ { s with messages }.setting = .error cause) ∨
      ∃ w w', s.setting = .ok w ∧ { s with messages }.setting = .ok w' ∧ w.Alike w' := by
  unfold setting
  dsimp only
  cases hmotes : s.extraMotes.foldlM World.addMote (.withMotes s.seed s.motes) with
  | error cause => exact .inl ⟨cause, rfl, rfl⟩
  | ok w =>
    have hw := World.foldlM_addMote hmotes
    have htimely : w.Timely := hw ▸ World.timely_withMotes s.seed s.motes
    have hdue (m : Message) : w.now ≤ m.time := by
      rw [hw]
      exact m.time.zero_le
    have hknows {m : Message} (hm : m ∈ s.messages) : w.knows m.source = true :=
      knows_of_nodes (congrArg World.motes hw) (hknown m hm)
    have hmem {m : Message} (hm : m ∈ messages) : m ∈ s.messages := by
      have hfilter : m ∈ messages.filter (·.time = m.time) := by simp [hm]
      rw [hsame] at hfilter
      exact List.mem_of_mem_filter hfilter
    obtain ⟨v, hv, hscheduled⟩ :=
      World.scheduled_of_knows (fun m hm => hknows hm) (fun m _ => hdue m)
    obtain ⟨v', hv', hscheduled'⟩ :=
      World.scheduled_of_knows (fun m hm => hknows (hmem hm)) (fun m _ => hdue m)
    exact .inr ⟨v, v', hv, hv', hscheduled.alike hscheduled' htimely hsame⟩

/-- Endings that differ at most in the numbers of what is left on the agenda. -/
structure Ending.Alike (e e' : Ending) : Prop where
  report : e'.report? = e.report?
  failure : ∀ cause, e'.result = .error (.run cause) ↔ e.result = .error (.run cause)
  motes : e'.world?.map (·.motes) = e.world?.map (·.motes)
  trace : e'.trace = e.trace

/-- The ending of a scenario whose plan was run. -/
def conclude (s : Scenario) (o : Outcome World World.Refusal) : Ending where
  result :=
    match o.result with
    | .error cause => .error (.run cause)
    | .ok report => s.judge o.sim report
  world? := some o.sim
  report? := o.result.toOption
  trace := o.trace

theorem run_of_setting {w : World} (h : s.setting = .ok w) :
    s.run = s.conclude (s.plan.run w s.cursor) := by
  rw [run, h]
  dsimp only
  unfold conclude
  cases (s.plan.run w s.cursor : Outcome World World.Refusal).result <;> rfl

theorem judge_ne_run (s : Scenario) (w : World) (report : Report) (cause : RunError World.Refusal) :
    s.judge w report ≠ .error (.run cause) := by
  intro h
  unfold judge at h
  split at h
  · cases h
  · split at h <;> cases h

theorem judge_of_blind (hblind : ∀ oracle ∈ s.oracle, oracle.Blind) {w w' : World}
    (h : w.Alike w') (report : Report) : s.judge w' report = s.judge w report := by
  unfold judge
  cases ho : s.oracle with
  | none => rfl
  | some oracle =>
    have hsame := hblind oracle ho w w' report h
    dsimp only
    rw [hsame]

theorem alike_conclude {o o' : Outcome World World.Refusal} (h : o.Related World.Alike o') :
    (s.conclude o).Alike (s.conclude o') := by
  refine ⟨congrArg Except.toOption h.result, fun cause => ?_, congrArg some h.sim.motes, h.trace⟩
  simp only [conclude, h.result]
  cases o.result with
  | error cause' => exact Iff.rfl
  | ok report => exact iff_of_false (judge_ne_run s _ _ _) (judge_ne_run s _ _ _)

theorem result_conclude (hblind : ∀ oracle ∈ s.oracle, oracle.Blind)
    {o o' : Outcome World World.Refusal} (h : o.Related World.Alike o') :
    (s.conclude o').result = (s.conclude o).result := by
  simp only [conclude, h.result]
  cases o.result with
  | error cause => rfl
  | ok report => exact judge_of_blind hblind h.sim report

/-- It makes no difference in which order a scenario lists its messages, from motes that it has or
from the script, as long as those of each time stay in order. The result is the same if there is no
oracle, or one that is blind to the difference. -/
theorem run_reordered (hknown : ∀ m ∈ s.messages, s.Knows m.source)
    (hsame : ∀ t, messages.filter (·.time = t) = s.messages.filter (·.time = t)) :
    s.run.Alike { s with messages }.run ∧
      ((∀ oracle ∈ s.oracle, oracle.Blind) → { s with messages }.run.result = s.run.result) := by
  rcases setting_cases hknown hsame with ⟨cause, hs, hs'⟩ | ⟨w, w', hs, hs', halike⟩
  · have hrun : s.run = { result := .error (.world cause) } := by rw [run, hs]
    have hrun' : { s with messages }.run = { result := .error (.world cause) } := by rw [run, hs']
    rw [hrun, hrun']
    exact ⟨⟨rfl, fun _ => Iff.rfl, rfl, rfl⟩, fun _ => rfl⟩
  · have hrelated := s.plan.related_run World.bisimulation halike s.cursor
    rw [run_of_setting hs, run_of_setting hs']
    exact ⟨alike_conclude hrelated, fun hblind => result_conclude hblind hrelated⟩

/-- Two lines of one time that stay in order, around one that is listed last but comes first. -/
theorem run_reordered_around_tie :
    let early : Message := ⟨.ofMillis 3, .mote 2, "up"⟩
    let first : Message := ⟨.ofMillis 5, .mote 1, "an ERROR here"⟩
    let second : Message := ⟨.ofMillis 5, .script, "continue"⟩
    let s : Scenario := { plan := {}, messages := [first, second, early] }
    let messages := [first, early, second]
    (∀ m ∈ s.messages, s.Knows m.source) ∧
      (∀ t, messages.filter (·.time = t) = s.messages.filter (·.time = t)) ∧
      s.run.Alike { s with messages }.run ∧ { s with messages }.run.result = s.run.result := by
  intro early first second s messages
  have hids : s.nodes.map (·.id) = [1, 2, 3] := by decide +kernel
  have hknows (id : MoteId) (h : id ∈ ([1, 2, 3] : List MoteId)) : s.Knows (.mote id) := by
    rwa [← hids] at h
  have hknown : ∀ m ∈ s.messages, s.Knows m.source := by
    simp only [s, List.forall_mem_cons]
    exact ⟨hknows 1 (by decide), trivial, hknows 2 (by decide), List.forall_mem_nil _⟩
  have hsame : ∀ t, messages.filter (·.time = t) = s.messages.filter (·.time = t) := by
    intro t
    have hlate : Instant.ofMillis 3 ≠ .ofMillis 5 := by decide
    by_cases ht : Instant.ofMillis 3 = t
    · simp [s, messages, early, first, second, ← ht, hlate.symm]
    · simp [s, messages, early, List.filter_cons, ht]
  obtain ⟨halike, hresult⟩ := run_reordered hknown hsame
  exact ⟨hknown, hsame, halike, hresult fun oracle ho => by cases ho⟩

end Scenario

end MoteBench
