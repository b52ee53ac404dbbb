import MoteBench.Controller

/-!
What a controller makes of a sequence of events. The main statements say what one answer can be:
a refusal, a step that keeps the run going, or the end of the run.
-/
namespace MoteBench

open MoteBench.Random Memory

/-- Whether a message ends a run. -/
def Plan.decides (plan : Plan) (text : String) : Bool := plan.fails text || plan.passes text

theorem Plan.decides_eq_false {plan : Plan} {text : String} :
    plan.decides text = false ↔ plan.fails text = false ∧ plan.passes text = false := by
  simp [decides]

namespace Controller

variable {G : Type}

/-- Something to do between the arming of the timeout and the verdict. -/
def Action.isProgress : Action → Bool
  | .log .. | .broadcast _ | .generate .. => true
  | .armTimeout _ | .finish _ => false

def Action.budget? : Action → Option Span
  | .armTimeout after => some after
  | _ => none

theorem Action.budget?_of_isProgress {a : Action} (h : a.isProgress) : a.budget? = none := by
  cases a with
  | armTimeout after => cases h
  | _ => rfl

namespace Reaction

/-- A reaction of `c` after which the run goes on. Messages that are asked for carry the cue. -/
structure Continues (c : Controller G) (r : Reaction G) : Prop where
  plan : r.controller.plan = c.plan
  stage : r.controller.stage = .running
  progress : ∀ a ∈ r.actions, a.isProgress
  cue : ∀ delay payload, .generate delay payload ∈ r.actions →
    ∃ cycle ∈ c.plan.resetCycle, payload = cycle.cue

/-- A reaction of `c` that brings the verdict. -/
structure Ends (c : Controller G) (r : Reaction G) (v : Verdict) : Prop where
  plan : r.controller.plan = c.plan
  stage : r.controller.stage = .ended v
  actions : ∃ evidence, r.actions = evidence ++ closing v ∧ ∀ a ∈ evidence, a.isProgress

end Reaction

open Reaction

theorem ends_finish (c : Controller G) {evidence : List Action} (v : Verdict)
    (h : ∀ a ∈ evidence, a.isProgress) : Ends c (c.finish evidence v) v where
  plan := rfl
  stage := rfl
  actions := ⟨evidence, rfl, h⟩

/-- The end of a run consists of lines and the verdict. -/
theorem mem_actions_finish {c : Controller G} {evidence : List Action}
    (hevidence : ∀ a ∈ evidence, ∃ level text, a = .log level text) {v : Verdict} {a : Action}
    (h : a ∈ (c.finish evidence v).actions) :
    (∃ level text, a = .log level text) ∨ a = .finish v := by
  rcases List.mem_append.mp h with h | h
  · exact .inl (hevidence a h)
  · unfold closing at h
    rcases List.mem_cons.mp h with rfl | h
    · exact .inl (by split <;> exact ⟨_, _, rfl⟩)
    · exact .inr (List.mem_singleton.mp h)

theorem filterMap_finish {α : Type} {f : Action → Option α}
    (hlog : ∀ level text, f (.log level text) = none) (hfinish : ∀ v, f (.finish v) = none)
    (c : Controller G) {evidence : List Action}
    (hevidence : ∀ a ∈ evidence, ∃ level text, a = .log level text) (v : Verdict) :
    (c.finish evidence v).actions.filterMap f = [] := by
  refine List.filterMap_eq_nil_iff.mpr fun a ha => ?_
  rcases mem_actions_finish hevidence ha with ⟨level, text, rfl⟩ | rfl
  · exact hlog level text
  · exact hfinish v

theorem budget?_of_mem_closing {v : Verdict} {a : Action} (h : a ∈ closing v) :
    a.budget? = none := by
  unfold closing at h
  rcases List.mem_cons.mp h with rfl | h
  · split <;> rfl
  · obtain rfl := List.mem_singleton.mp h
    rfl

theorem Reaction.Ends.budget? {c : Controller G} {r : Reaction G} {v : Verdict} (h : Ends c r v) :
    ∀ a ∈ r.actions, a.budget? = none := by
  obtain ⟨evidence, heq, hevidence⟩ := h.actions
  intro a ha
  rw [heq] at ha
  rcases List.mem_append.mp ha with ha | ha
  · exact Action.budget?_of_isProgress (hevidence a ha)
  · exact budget?_of_mem_closing ha

theorem continues_nothing {c : Controller G} (h : c.stage = .running) :
    Continues c { actions := [], controller := c } :=
  ⟨rfl, h, by simp, by simp⟩

theorem cycle?_eq_some {c : Controller G} {cycle : ResetCycle} {phase : CyclePhase} :
    c.cycle? = some (cycle, phase) ↔ c.plan.resetCycle = some cycle ∧ c.phase = some phase := by
  unfold cycle?
  cases c.plan.resetCycle <;> cases c.phase <;> simp

/-- The verdict on a message that decides the run; failures come before anything else. -/
def verdictOn (plan : Plan) (m : Message) : Verdict :=
  if plan.fails m.text then .fail m.render else .pass

/-- The verdict on a run whose budget has elapsed. -/
def verdictAt (plan : Plan) (now : Instant) : Verdict :=
  match plan.expiry with
  | .pass => .timeoutPass
  | .fail => .fail s!"timed out after {Decimal.twoPlaces now.seconds} s"

theorem ends_onTimeout (c : Controller G) (now : Instant) :
    Ends c (c.onTimeout now) (verdictAt c.plan now) :=
  ends_finish c _ (by simp [Action.isProgress])

theorem verdict?_eq_some_iff {c : Controller G} {v : Verdict} :
    c.verdict? = some v ↔ c.stage = .ended v := by
  unfold verdict?
  cases c.stage <;> simp

theorem verdict?_of_running {c : Controller G} (h : c.stage = .running) : c.verdict? = none := by
  rw [verdict?, h]

variable [WordSource G]

def answer (c : Controller G) (e : Event) : Except Misuse (List Action) :=
  (c.handle e).map (·.actions)

/-- The controller after an event; one that was refused left no mark on it. -/
def after (c : Controller G) (e : Event) : Controller G :=
  match c.handle e with
  | .ok reaction => reaction.controller
  | .error _ => c

/-- What an event makes the controller ask for. -/
def emits (c : Controller G) (e : Event) : List Action := (c.answer e).toOption.getD []

def afterAll (c : Controller G) (events : List Event) : Controller G := events.foldl after c

/-- One answer for each event. -/
def answers (c : Controller G) : List Event → List (Except Misuse (List Action))
  | [] => []
  | e :: events => c.answer e :: (c.after e).answers events

/-- The actions of all answers together, in order. -/
def emitted (c : Controller G) (events : List Event) : List Action :=
  (c.answers events).flatMap fun answer => answer.toOption.getD []

@[simp] theorem afterAll_nil (c : Controller G) : c.afterAll [] = c := rfl

@[simp] theorem afterAll_cons (c : Controller G) (e : Event) (events : List Event) :
    c.afterAll (e :: events) = (c.after e).afterAll events := rfl

theorem afterAll_append (c : Controller G) (front back : List Event) :
    c.afterAll (front ++ back) = (c.afterAll front).afterAll back := List.foldl_append

@[simp] theorem emitted_nil (c : Controller G) : c.emitted [] = [] := rfl

theorem emitted_cons (c : Controller G) (e : Event) (events : List Event) :
    c.emitted (e :: events) = c.emits e ++ (c.after e).emitted events := rfl

theorem emitted_append (c : Controller G) (front back : List Event) :
    c.emitted (front ++ back) = c.emitted front ++ (c.afterAll front).emitted back := by
  induction front generalizing c with
  | nil => rfl
  | cons e front ih =>
    rw [List.cons_append, emitted_cons, emitted_cons, ih, afterAll_cons, List.append_assoc]

theorem answers_append (c : Controller G) (front back : List Event) :
    c.answers (front ++ back) = c.answers front ++ (c.afterAll front).answers back := by
  induction front generalizing c with
  | nil => rfl
  | cons e front ih => rw [List.cons_append, answers, answers, ih, afterAll_cons, List.cons_append]

theorem after_of_handle {c : Controller G} {e : Event} {r : Reaction G} (h : c.handle e = .ok r) :
    c.after e = r.controller := by
  rw [after, h]

theorem answer_of_handle {c : Controller G} {e : Event} {r : Reaction G} (h : c.handle e = .ok r) :
    c.answer e = .ok r.actions := by
  rw [answer, h]
  rfl

theorem emits_of_handle {c : Controller G} {e : Event} {r : Reaction G} (h : c.handle e = .ok r) :
    c.emits e = r.actions := by
  rw [emits, answer_of_handle h]
  rfl

theorem handle_of_answer {c : Controller G} {e : Event} {cause : Misuse}
    (h : c.answer e = .error cause) : c.handle e = .error cause := by
  unfold answer at h
  cases hc : c.handle e with
  | error found => simpa [hc, Except.map] using h
  | ok r => simp [hc, Except.map] at h

theorem handle_of_answer_ok {c : Controller G} {e : Event} {actions : List Action}
    (h : c.answer e = .ok actions) : ∃ r, c.handle e = .ok r ∧ r.actions = actions := by
  unfold answer at h
  cases hc : c.handle e with
  | error cause => simp [hc, Except.map] at h
  | ok r => exact ⟨r, rfl, by simpa [hc, Except.map] using h⟩

theorem after_of_refused {c : Controller G} {e : Event} {cause : Misuse}
    (h : c.answer e = .error cause) : c.after e = c := by
  rw [after, handle_of_answer h]

theorem emits_of_refused {c : Controller G} {e : Event} {cause : Misuse}
    (h : c.answer e = .error cause) : c.emits e = [] := by
  rw [emits, h]
  rfl

theorem continues_restartPhase {c : Controller G} (h : c.stage = .running) :
    Continues c c.restartPhase where
  plan := rfl
  stage := h
  progress := by simp [restartPhase, Action.isProgress]
  cue := by simp [restartPhase]

theorem continues_turnCycle {c : Controller G} (h : c.stage = .running) {cycle : ResetCycle}
    (hc : c.plan.resetCycle = some cycle) (phase : CyclePhase) :
    Continues c (c.turnCycle cycle phase) := by
  cases phase with
  | configured =>
    exact ⟨rfl, h, by simp [turnCycle, Action.isProgress], by simp [turnCycle, hc]⟩
  | parked =>
    exact ⟨rfl, h, by simp [turnCycle, Action.isProgress], by simp [turnCycle, hc]⟩

theorem onMessage_of_fails {c : Controller G} {m : Message} (h : c.plan.fails m.text = true) :
    c.onMessage m = c.finish [.log .error m.render] (.fail m.render) := by
  rw [onMessage, if_pos h]

theorem onMessage_of_passes {c : Controller G} {m : Message} (hf : c.plan.fails m.text = false)
    (hp : c.plan.passes m.text = true) : c.onMessage m = c.finish [] .pass := by
  rw [onMessage, if_neg (by simp [hf]), if_pos hp]

/-- A message that decides nothing can turn the cycle, start a new phase or do nothing. -/
theorem onMessage_of_not_decides {c : Controller G} {m : Message}
    (h : c.plan.decides m.text = false) : c.onMessage m = match c.cycle? with
      | some (cycle, phase) =>
        if m.text = cycle.cue then c.turnCycle cycle phase else { actions := [], controller := c }
      | none =>
        if c.plan.endsPhase m.text then c.restartPhase else { actions := [], controller := c } := by
  obtain ⟨hf, hp⟩ := Plan.decides_eq_false.mp h
  rw [onMessage, if_neg (by simp [hf])]
  exact if_neg (by simp [hp])

/-- A message that decides the run ends it, after a line at most. -/
theorem onMessage_of_decides {c : Controller G} {m : Message} (h : c.plan.decides m.text = true) :
    ∃ evidence v, (∀ a ∈ evidence, ∃ level text, a = .log level text) ∧
      c.onMessage m = c.finish evidence v := by
  cases hf : c.plan.fails m.text with
  | true => exact ⟨[.log .error m.render], _, by simp, onMessage_of_fails hf⟩
  | false =>
    have hp : c.plan.passes m.text = true := by simpa [Plan.decides, hf] using h
    exact ⟨[], _, by simp, onMessage_of_passes hf hp⟩

theorem continues_onMessage {c : Controller G} (hs : c.stage = .running) {m : Message}
    (h : c.plan.decides m.text = false) : Continues c (c.onMessage m) := by
  rw [onMessage_of_not_decides h]
  split
  · rename_i cycle phase hc
    split
    · exact continues_turnCycle hs (cycle?_eq_some.mp hc).1 phase
    · exact continues_nothing hs
  · split
    · exact continues_restartPhase hs
    · exact continues_nothing hs

theorem ends_onMessage {c : Controller G} {m : Message} (h : c.plan.decides m.text = true) :
    Ends c (c.onMessage m) (verdictOn c.plan m) := by
  cases hf : c.plan.fails m.text with
  | true =>
    rw [verdictOn, if_pos hf, onMessage_of_fails hf]
    exact ends_finish c _ (by simp [Action.isProgress])
  | false =>
    have hp : c.plan.passes m.text = true := by simpa [Plan.decides, hf] using h
    rw [verdictOn, if_neg (by simp [hf]), onMessage_of_passes hf hp]
    exact ends_finish c _ (by simp)

/-- The budget is armed before anything is set or generated. -/
theorem actions_start (c : Controller G) (now : Instant) :
    ∃ rest, (c.start now).actions =
        .log .info (startingLine c.plan now) :: .armTimeout c.plan.budget :: rest ∧
      (∀ a ∈ rest, a.isProgress) ∧
      ∀ delay payload, .generate delay payload ∈ rest →
        ∃ cycle ∈ c.plan.resetCycle, payload = cycle.cue := by
  refine ⟨(if (drawPorts c.plan.parameters c.ports).1.isEmpty then []
      else [.broadcast (drawPorts c.plan.parameters c.ports).1]) ++
    c.plan.resetCycle.toList.map fun cycle => .generate cycle.runPhase cycle.cue, rfl, ?_, ?_⟩
  · intro a ha
    rcases List.mem_append.mp ha with ha | ha
    · split at ha
      · cases ha
      · obtain rfl := List.mem_singleton.mp ha
        rfl
    · obtain ⟨cycle, _, rfl⟩ := List.mem_map.mp ha
      rfl
  · intro delay payload hg
    rcases List.mem_append.mp hg with hg | hg
    · split at hg <;> simp at hg
    · obtain ⟨cycle, hc, heq⟩ := List.mem_map.mp hg
      obtain ⟨_, rfl⟩ := Action.generate.inj heq
      exact ⟨cycle, by simpa using hc, rfl⟩

theorem handle_start {c : Controller G} (h : c.stage = .armed) (now : Instant) :
    c.handle (.start now) = .ok (c.start now) := by
  unfold handle
  rw [h]

theorem handle_message {c : Controller G} (h : c.stage = .running) (m : Message) :
    c.handle (.message m) = .ok (c.onMessage m) := by
  unfold handle
  rw [h]

theorem handle_timeout {c : Controller G} (h : c.stage = .running) (now : Instant) :
    c.handle (.timeout now) = .ok (c.onTimeout now) := by
  unfold handle
  rw [h]

theorem handle_ended {c : Controller G} {v : Verdict} (h : c.stage = .ended v) (e : Event) :
    c.handle e = .ok { actions := [], controller := c } := by
  unfold handle
  rw [h]

/-- Before the start nothing else is accepted, and during a run no other start. -/
theorem answer_eq_error_iff {c : Controller G} {e : Event} {cause : Misuse} :
    c.answer e = .error cause ↔
      c.stage = .armed ∧ (∃ m, e = .message m) ∧ cause = .messageBeforeStart ∨
      c.stage = .armed ∧ (∃ now, e = .timeout now) ∧ cause = .timeoutBeforeStart ∨
      c.stage = .running ∧ (∃ now, e = .start now) ∧ cause = .alreadyStarted := by
  unfold answer handle
  cases hs : c.stage <;> cases e <;> simp [Except.map, eq_comm]

/-- An accepted event either keeps a run going or ends it. -/
theorem handle_of_running {c : Controller G} (hs : c.stage = .running) {e : Event} {r : Reaction G}
    (h : c.handle e = .ok r) : Continues c r ∨ ∃ v, Ends c r v := by
  cases e with
  | start now =>
    unfold handle at h
    simp [hs] at h
  | message m =>
    obtain rfl := Except.ok.inj ((handle_message hs m).symm.trans h)
    cases hd : c.plan.decides m.text with
    | true => exact .inr ⟨_, ends_onMessage hd⟩
    | false => exact .inl (continues_onMessage hs hd)
  | timeout now =>
    obtain rfl := Except.ok.inj ((handle_timeout hs now).symm.trans h)
    exact .inr ⟨_, ends_onTimeout c now⟩

/-- All that an event can come to that is not refused. -/
theorem handle_cases {c : Controller G} {e : Event} {r : Reaction G} (h : c.handle e = .ok r) :
    (c.stage = .armed ∧ ∃ now, e = .start now ∧ r = c.start now) ∨
      (c.stage = .running ∧ (Continues c r ∨ ∃ v, Ends c r v)) ∨
      ((∃ v, c.stage = .ended v) ∧ r = { actions := [], controller := c }) := by
  cases hs : c.stage with
  | armed =>
    cases e with
    | start now => exact .inl ⟨rfl, now, rfl, Except.ok.inj (h.symm.trans (handle_start hs now))⟩
    | message m => simp [handle, hs] at h
    | timeout now => simp [handle, hs] at h
  | running => exact .inr (.inl ⟨rfl, handle_of_running hs h⟩)
  | ended v =>
    exact .inr (.inr ⟨⟨v, rfl⟩, Except.ok.inj (h.symm.trans (handle_ended hs e))⟩)

theorem plan_after (c : Controller G) (e : Event) : (c.after e).plan = c.plan := by
  cases h : c.handle e with
  | error cause => rw [after, h]
  | ok r =>
    rw [after_of_handle h]
    obtain ⟨-, now, rfl, rfl⟩ | ⟨-, hc | ⟨v, hv⟩⟩ | ⟨-, rfl⟩ := handle_cases h
    · rfl
    · exact hc.plan
    · exact hv.plan
    · rfl

/-- What was asked for was asked for in answer to one of the events. -/
theorem exists_mem_emits {c : Controller G} {events : List Event} {a : Action}
    (h : a ∈ c.emitted events) : ∃ front e, a ∈ (c.afterAll front).emits e := by
  induction events generalizing c with
  | nil => cases h
  | cons e events ih =>
    rw [emitted_cons] at h
    rcases List.mem_append.mp h with h | h
    · exact ⟨[], e, h⟩
    · obtain ⟨front, e', h'⟩ := ih h
      exact ⟨e :: front, e', h'⟩

theorem plan_afterAll (c : Controller G) (events : List Event) :
    (c.afterAll events).plan = c.plan := by
  induction events generalizing c with
  | nil => rfl
  | cons e events ih => rw [afterAll_cons, ih, plan_after]

end Controller

end MoteBench
