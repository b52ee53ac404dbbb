import MoteBench.Proofs.Controller.InPlace

/-!
The life of a controller, whatever it is told and in whatever order: it is armed until its start,
runs until its verdict, and is silent from then on. What it has asked for so far shows where it is.
An event that is refused leaves no mark on it, although it is changed in place.
-/
namespace MoteBench

open MoteBench.Random Controller Reaction

/-- All that a controller can have asked for when it has come to a stage. -/
def Stage.Explains (plan : Plan) (actions : List Action) : Stage → Prop
  | .armed => actions = []
  | .running => ∃ line rest, (∀ a ∈ rest, a.isProgress) ∧
      actions = .log .info line :: .armTimeout plan.budget :: rest
  | .ended v => ∃ line rest, (∀ a ∈ rest, a.isProgress) ∧
      actions = .log .info line :: .armTimeout plan.budget :: (rest ++ closing v)

namespace Controller

variable {G : Type}

theorem Reaction.Continues.explains {c : Controller G} {r : Reaction G} {actions : List Action}
    (hr : Continues c r) (he : Stage.Explains c.plan actions .running) :
    Stage.Explains c.plan (actions ++ r.actions) .running := by
  obtain ⟨line, rest, hrest, rfl⟩ := he
  refine ⟨line, rest ++ r.actions, ?_, rfl⟩
  intro a ha
  rcases List.mem_append.mp ha with ha | ha
  · exact hrest a ha
  · exact hr.progress a ha

theorem Reaction.Ends.explains {c : Controller G} {r : Reaction G} {v : Verdict}
    {actions : List Action} (hr : Ends c r v) (he : Stage.Explains c.plan actions .running) :
    Stage.Explains c.plan (actions ++ r.actions) (.ended v) := by
  obtain ⟨line, rest, hrest, rfl⟩ := he
  obtain ⟨evidence, heq, hevidence⟩ := hr.actions
  refine ⟨line, rest ++ evidence, ?_, by simp [heq]⟩
  intro a ha
  rcases List.mem_append.mp ha with ha | ha
  · exact hrest a ha
  · exact hevidence a ha

variable [WordSource G]

theorem explains_start {c : Controller G} {actions : List Action} (h : c.stage = .armed)
    (he : c.stage.Explains c.plan actions) (now : Instant) :
    Stage.Explains c.plan (actions ++ (c.start now).actions) .running := by
  rw [h] at he
  obtain ⟨rest, heq, hrest, _⟩ := actions_start c now
  obtain rfl : actions = [] := he
  exact ⟨_, rest, hrest, heq⟩

/-- One event moves the stage and the actions along together. -/
theorem explains_after {c : Controller G} {actions : List Action}
    (he : c.stage.Explains c.plan actions) (e : Event) :
    (c.after e).plan = c.plan ∧
      (c.after e).stage.Explains c.plan (actions ++ c.emits e) := by
  cases ha : c.answer e with
  | error cause =>
    rw [after_of_refused ha, emits_of_refused ha, List.append_nil]
    exact ⟨rfl, he⟩
  | ok asked =>
    obtain ⟨r, hr, _⟩ := handle_of_answer_ok ha
    rw [after_of_handle hr, emits_of_handle hr]
    obtain ⟨hs, now, rfl, rfl⟩ | ⟨hs, hc | ⟨v, hv⟩⟩ | ⟨-, rfl⟩ := handle_cases hr
    · exact ⟨rfl, explains_start hs he now⟩
    · exact ⟨hc.plan, hc.stage ▸ hc.explains (hs ▸ he)⟩
    · exact ⟨hv.plan, hv.stage ▸ hv.explains (hs ▸ he)⟩
    · exact ⟨rfl, (List.append_nil actions).symm ▸ he⟩

/-- At every point of every history, what was asked for explains the stage. -/
theorem explains_afterAll {c : Controller G} {actions : List Action}
    (he : c.stage.Explains c.plan actions) (events : List Event) :
    (c.afterAll events).plan = c.plan ∧
      (c.afterAll events).stage.Explains c.plan (actions ++ c.emitted events) := by
  induction events generalizing c actions with
  | nil => simpa using he
  | cons e events ih =>
    obtain ⟨hplan, hstep⟩ := explains_after he e
    obtain ⟨hplan', hrest⟩ := ih (hplan ▸ hstep)
    rw [afterAll_cons, emitted_cons, ← List.append_assoc]
    exact ⟨hplan'.trans hplan, hplan ▸ hrest⟩

/-- A controller stays armed until it is told to start. -/
theorem stage_after_eq_armed_iff {c : Controller G} {e : Event} :
    (c.after e).stage = .armed ↔ c.stage = .armed ∧ ∀ now, e ≠ .start now := by
  cases ha : c.answer e with
  | error cause =>
    rw [after_of_refused ha]
    rcases answer_eq_error_iff.mp ha with
      ⟨hs, ⟨m, rfl⟩, _⟩ | ⟨hs, ⟨now, rfl⟩, _⟩ | ⟨hs, ⟨now, rfl⟩, _⟩
    · simp [hs]
    · simp [hs]
    · simp [hs]
  | ok asked =>
    obtain ⟨r, hr, _⟩ := handle_of_answer_ok ha
    rw [after_of_handle hr]
    obtain ⟨-, now, rfl, rfl⟩ | ⟨hs, hc | ⟨v, hv⟩⟩ | ⟨⟨v, hs⟩, rfl⟩ := handle_cases hr
    · simp [start]
    · simp [hs, hc.stage]
    · simp [hs, hv.stage]
    · simp [hs]

theorem stage_afterAll_eq_armed_iff {c : Controller G} {events : List Event} :
    (c.afterAll events).stage = .armed ↔ c.stage = .armed ∧ ∀ now, .start now ∉ events := by
  induction events generalizing c with
  | nil => simp
  | cons e events ih =>
    rw [afterAll_cons, ih, stage_after_eq_armed_iff, and_assoc]
    apply and_congr_right
    intro _
    simp only [List.mem_cons, not_or, forall_and, ne_eq, eq_comm]

/-- One of the events is a start that the controller does not refuse. -/
def Started (c : Controller G) (events : List Event) : Prop :=
  ∃ front now back, events = front ++ .start now :: back ∧
    ∃ asked, (c.afterAll front).answer (.start now) = .ok asked

theorem started_iff {c : Controller G} (h : c.stage = .armed) {events : List Event} :
    c.Started events ↔ (c.afterAll events).stage ≠ .armed := by
  constructor
  · rintro ⟨front, now, back, rfl, _⟩ hs
    exact (stage_afterAll_eq_armed_iff.mp hs).2 now (by simp)
  · intro hs
    -- Only a start moves an armed controller, so the first event to do so is accepted.
    induction events generalizing c with
    | nil => exact absurd h hs
    | cons e events ih =>
      cases e with
      | start now => exact ⟨[], now, events, rfl, _, answer_of_handle (handle_start h now)⟩
      | message m =>
        have hm : (c.after (.message m)).stage = .armed := stage_after_eq_armed_iff.mpr ⟨h, by simp⟩
        obtain ⟨front, now, back, rfl, hasked⟩ := ih hm hs
        exact ⟨.message m :: front, now, back, rfl, hasked⟩
      | timeout t =>
        have ht : (c.after (.timeout t)).stage = .armed := stage_after_eq_armed_iff.mpr ⟨h, by simp⟩
        obtain ⟨front, now, back, rfl, hasked⟩ := ih ht hs
        exact ⟨.timeout t :: front, now, back, rfl, hasked⟩

/-- The action sets ports or asks for a message. -/
def Action.needsTimeout : Action → Bool
  | .broadcast _ | .generate .. => true
  | _ => false

theorem not_finish_mem_of_isProgress {actions : List Action} (h : ∀ a ∈ actions, a.isProgress)
    (v : Verdict) : .finish v ∉ actions :=
  fun hm => Bool.false_ne_true (h _ hm)

theorem budgets_eq_nil_of_isProgress {actions : List Action} (h : ∀ a ∈ actions, a.isProgress) :
    actions.filterMap (·.budget?) = [] :=
  List.filterMap_eq_nil_iff.mpr fun a ha => Action.budget?_of_isProgress (h a ha)

/-- The line that goes before a verdict. -/
def resultLine (v : Verdict) : Action :=
  if v.isSuccess then .log .info "TEST OK" else .log .error "TEST FAILED"

theorem closing_eq (v : Verdict) : closing v = [resultLine v, .finish v] := rfl

theorem finish_ne_resultLine (v w : Verdict) : .finish v ≠ resultLine w := by
  unfold resultLine
  split <;> simp

end Controller

open Controller

namespace Stage.Explains

variable {plan : Plan} {actions : List Action} {stage : Stage}

theorem finish_mem_iff (h : stage.Explains plan actions) {v : Verdict} :
    .finish v ∈ actions ↔ stage = .ended v := by
  cases stage with
  | armed =>
    obtain rfl : actions = [] := h
    simp
  | running =>
    obtain ⟨line, rest, hrest, rfl⟩ := h
    simp [not_finish_mem_of_isProgress hrest]
  | ended w =>
    obtain ⟨line, rest, hrest, rfl⟩ := h
    have hline := finish_ne_resultLine v w
    have hnone := not_finish_mem_of_isProgress hrest v
    rw [closing_eq, Stage.ended.injEq, eq_comm (a := w)]
    simp [hnone, hline]

/-- A verdict is the last thing asked for, right after the line that announces it. -/
theorem finish_last (h : stage.Explains plan actions) {front back : List Action} {v : Verdict}
    (heq : actions = front ++ .finish v :: back) :
    back = [] ∧ ∃ earlier, front = earlier ++ [resultLine v] := by
  obtain rfl := h.finish_mem_iff.mp (show .finish v ∈ actions by simp [heq])
  obtain ⟨line, rest, hrest, rfl⟩ := h
  let opening : List Action := .log .info line :: .armTimeout plan.budget :: rest
  have hnone : .finish v ∉ opening ++ [resultLine v] := by
    have hline := finish_ne_resultLine v v
    have hrest := not_finish_mem_of_isProgress hrest v
    simp [opening, hline, hrest]
  have hsplit : opening ++ [resultLine v] ++ [.finish v] = front ++ .finish v :: back := by
    simpa [opening, closing_eq] using heq
  rcases List.eq_nil_or_concat back with rfl | ⟨more, last, rfl⟩
  · exact ⟨rfl, opening, (List.append_inj' hsplit rfl).1.symm⟩
  · -- Anything behind the verdict would put the verdict among the actions before.
    rw [List.concat_eq_append, ← List.cons_append, ← List.append_assoc] at hsplit
    have hfront := (List.append_inj' hsplit rfl).1
    exact absurd (by simp [hfront]) hnone

/-- The timeout is armed once, by the start. -/
theorem budgets_eq (h : stage.Explains plan actions) :
    actions.filterMap (·.budget?) = if stage = .armed then [] else [plan.budget] := by
  cases stage with
  | armed =>
    obtain rfl : actions = [] := h
    rfl
  | running =>
    obtain ⟨line, rest, hrest, rfl⟩ := h
    have hnone := budgets_eq_nil_of_isProgress hrest
    simpa [List.filterMap_cons, Action.budget?] using hnone
  | ended v =>
    obtain ⟨line, rest, hrest, rfl⟩ := h
    have hnone := budgets_eq_nil_of_isProgress hrest
    have hclosing : (closing v).filterMap (·.budget?) = [] :=
      List.filterMap_eq_nil_iff.mpr fun a => budget?_of_mem_closing
    rw [List.filterMap_cons, List.filterMap_cons, List.filterMap_append, hnone, hclosing]
    rfl

/-- Only the first line comes before the arming of the timeout. -/
theorem armTimeout_first (h : stage.Explains plan actions) {front back : List Action} {a : Action}
    (heq : actions = front ++ a :: back) (ha : a.needsTimeout) :
    .armTimeout plan.budget ∈ front := by
  have hopen : ∃ line rest, actions = .log .info line :: .armTimeout plan.budget :: rest := by
    cases stage with
    | armed => exact absurd (heq.symm.trans h) (by simp)
    | running =>
      obtain ⟨line, rest, _, hrest⟩ := h
      exact ⟨line, rest, hrest⟩
    | ended v =>
      obtain ⟨line, rest, _, hrest⟩ := h
      exact ⟨line, _, hrest⟩
  obtain ⟨line, rest, hrest⟩ := hopen
  rw [hrest] at heq
  match front, heq with
  | [], heq =>
    obtain ⟨rfl, _⟩ := List.cons.inj heq
    simp [Action.needsTimeout] at ha
  | [_], heq =>
    obtain ⟨rfl, _⟩ := List.cons.inj (List.cons.inj heq).2
    simp [Action.needsTimeout] at ha
  | _ :: b :: _, heq =>
    obtain ⟨rfl, _⟩ := List.cons.inj (List.cons.inj heq).2
    simp

end Stage.Explains

namespace Controller

variable {G : Type} [WordSource G]

/-- The life of the controller `c₀` up to a point: `events` are all it has been told. -/
structure Lifecycle (c₀ : Controller G) (events : List Event) : Prop where
  /-- Only these are refused: anything but a start before the run, and a start during it. -/
  refused_iff : ∀ e cause, (c₀.afterAll events).answer e = .error cause ↔
    (c₀.afterAll events).stage = .armed ∧ (∃ m, e = .message m) ∧ cause = .messageBeforeStart ∨
    (c₀.afterAll events).stage = .armed ∧ (∃ now, e = .timeout now) ∧ cause = .timeoutBeforeStart ∨
    (c₀.afterAll events).stage = .running ∧ (∃ now, e = .start now) ∧ cause = .alreadyStarted
  /-- The controller that is changed in place, also by events that are refused, gives these answers
  and comes to this. -/
  inPlace : ∀ trace, InPlace.tellAll { controller := c₀, trace } events =
    (c₀.answers events,
      { controller := c₀.afterAll events, trace := trace ++ c₀.reportsAll events })
  /-- A refused event changes nothing in place, now or later. -/
  refused : ∀ trace answers s, InPlace.tellAll { controller := c₀, trace } events = (answers, s) →
    ∀ e cause s', InPlace.handle e s = .error cause s' → s' = s ∧
      ∀ later, InPlace.tellAll { controller := c₀, trace } (events ++ e :: later) =
        (answers ++ .error cause :: (InPlace.tellAll s later).1, (InPlace.tellAll s later).2)
  finish_last : ∀ front v back, c₀.emitted events = front ++ .finish v :: back →
    back = [] ∧ ∃ earlier, front = earlier ++
      [if v.isSuccess then .log .info "TEST OK" else .log .error "TEST FAILED"]
  /-- The verdict is known exactly when it was asked for. -/
  verdict_iff : ∀ v, (c₀.afterAll events).verdict? = some v ↔ .finish v ∈ c₀.emitted events
  /-- After the verdict every event is accepted and has no effect. -/
  settled : ∀ v, (c₀.afterAll events).verdict? = some v → ∀ e,
    (c₀.afterAll events).answer e = .ok [] ∧
      (c₀.afterAll events).after e = c₀.afterAll events ∧
      ∀ trace, InPlace.handle e { controller := c₀.afterAll events, trace } =
        .ok [] { controller := c₀.afterAll events, trace }
  armed_once : c₀.Started events → (c₀.emitted events).filterMap (·.budget?) = [c₀.plan.budget]
  never_armed : ¬ c₀.Started events → (c₀.emitted events).filterMap (·.budget?) = []
  armed_first : ∀ front a back, c₀.emitted events = front ++ a :: back → a.needsTimeout →
    .armTimeout c₀.plan.budget ∈ front

/-- A controller lives so under every plan and every sequence of events. -/
theorem lifecycle (plan : Plan) (ports : Port.Allocator G) (events : List Event) :
    Lifecycle { plan, ports } events := by
  have fresh : ({ plan, ports } : Controller G).stage = .armed := rfl
  have hexplains : (Controller.afterAll { plan, ports } events).stage.Explains plan
      (Controller.emitted { plan, ports } events) := by
    have hnil : Stage.armed.Explains plan [] := rfl
    exact (explains_afterAll (c := { plan, ports }) hnil events).2
  have hcoherent : Coherent { plan, ports } := fun _ => rfl
  constructor
  case refused_iff => exact fun e cause => answer_eq_error_iff
  case inPlace => exact fun trace => InPlace.tellAll_eq hcoherent events
  case refused =>
    intro trace answers s htold e cause s' h
    have hs : s.controller.Coherent := by
      have hcontroller := congrArg (·.2.controller)
        (htold.symm.trans (InPlace.tellAll_eq hcoherent events))
      exact hcontroller ▸ hcoherent.afterAll events
    obtain rfl := InPlace.eq_of_refused hs h
    refine ⟨rfl, fun later => ?_⟩
    rw [InPlace.tellAll_append, htold]
    dsimp only
    rw [InPlace.tellAll, InPlace.tell, h]
  case finish_last => exact fun front v back heq => hexplains.finish_last heq
  case verdict_iff => exact fun v => verdict?_eq_some_iff.trans hexplains.finish_mem_iff.symm
  case settled =>
    intro v hv e
    have hh := handle_ended (verdict?_eq_some_iff.mp hv) e
    refine ⟨answer_of_handle hh, after_of_handle hh, fun trace => ?_⟩
    have hs := hcoherent.afterAll events
    exact (InPlace.handle_apply (s := ⟨_, trace⟩) hs e).trans
      ((congrArg _ hh).trans (InPlace.concluded_silent ..))
  case armed_once =>
    intro hstarted
    rw [hexplains.budgets_eq, if_neg ((started_iff fresh).mp hstarted)]
  case never_armed =>
    intro hnot
    have hs := Decidable.not_not.mp (mt (started_iff fresh).mpr hnot)
    rw [hexplains.budgets_eq, if_pos hs]
  case armed_first => exact fun front a back heq ha => hexplains.armTimeout_first heq ha

end Controller

end MoteBench
