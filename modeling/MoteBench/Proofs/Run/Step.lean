import MoteBench.Proofs.Controller.History
import MoteBench.Proofs.Cursor
import MoteBench.Run

/-!
One event in a run: the controller answers it, and the simulation carries the answer out. The
report keeps the lines and the bindings of all that was asked for.
-/
namespace MoteBench

open MoteBench.Random Memory Controller

namespace Controller.Action

def line? : Action → Option String
  | .log _ line => some line
  | _ => none

def bindings? : Action → Option (List Binding)
  | .broadcast bindings => some bindings
  | _ => none

end Controller.Action

namespace Controller

theorem verdicts_eq_nil_of_isProgress {actions : List Action} (h : ∀ a ∈ actions, a.isProgress) :
    actions.filterMap (·.verdict?) = [] := by
  apply List.filterMap_eq_nil_iff.mpr
  intro a ha
  have := h a ha
  cases a <;> simp_all [Action.isProgress, Action.verdict?]

theorem verdicts_of_ends {G : Type} {c : Controller G} {reaction : Reaction G} {v : Verdict}
    (h : Reaction.Ends c reaction v) : reaction.actions.filterMap (·.verdict?) = [v] := by
  obtain ⟨evidence, heq, hevidence⟩ := h.actions
  have hclosing : (closing v).filterMap (·.verdict?) = [v] := by
    unfold closing
    split <;> rfl
  rw [heq, List.filterMap_append, verdicts_eq_nil_of_isProgress hevidence, hclosing,
    List.nil_append]

theorem verdicts_start {G : Type} [WordSource G] (c : Controller G) (now : Instant) :
    (c.start now).actions.filterMap (·.verdict?) = [] := by
  obtain ⟨rest, heq, hrest, -⟩ := actions_start c now
  rw [heq, List.filterMap_cons, List.filterMap_cons, verdicts_eq_nil_of_isProgress hrest]
  rfl

/-- A running controller takes every delivery. It goes on, or it ends the run with lines and the
verdict. -/
theorem handle_delivery {G : Type} [WordSource G] {c : Controller G} (hs : c.stage = .running)
    (d : Delivery) :
    ∃ reaction, c.handle d.toEvent = .ok reaction ∧
      (Reaction.Continues c reaction ∨ ∃ evidence v,
        (∀ a ∈ evidence, ∃ level text, a = .log level text) ∧ reaction = c.finish evidence v) := by
  cases d with
  | message m =>
    refine ⟨_, handle_message hs m, ?_⟩
    cases hd : c.plan.decides m.text with
    | true => exact .inr (onMessage_of_decides hd)
    | false => exact .inl (continues_onMessage hs hd)
  | timeout time => exact ⟨_, handle_timeout hs time, .inr ⟨_, _, by simp, rfl⟩⟩

end Controller

namespace Run

variable {G σ ν ε : Type} [Node ν] [Simulator σ ν ε]

@[simp] theorem controller_perform (r : Run G σ) (a : Action) :
    (r.perform a).2.controller = r.controller := by
  cases a <;> rfl

/-- What every action keeps, all of them keep. -/
theorem performAll_induction {P : Run G σ → Prop} {actions : List Action}
    (hstep : ∀ a ∈ actions, ∀ r : Run G σ, P r → P (r.perform a).2) {r : Run G σ} (h : P r) :
    P (performAll actions r).2 := by
  induction actions generalizing r with
  | nil => exact h
  | cons a rest ih =>
    obtain ⟨ha, hrest⟩ := List.forall_mem_cons.mp hstep
    have hfirst := ha r h
    unfold performAll
    cases hr : r.perform a with
    | mk answer r' =>
      rw [hr] at hfirst
      cases answer with
      | error e => exact hfirst
      | ok u => exact ih hrest hfirst

theorem performAll_cons_of_ok {a : Action} {rest : List Action} {r : Run G σ}
    (h : (r.perform a).1 = .ok ()) :
    performAll (a :: rest) r = performAll rest (r.perform a).2 := by
  rw [performAll]
  cases hr : r.perform a with
  | mk answer r' =>
    rw [hr] at h
    obtain rfl : answer = .ok () := h
    rfl

theorem performAll_cons_of_error {a : Action} {rest : List Action} {r : Run G σ} {cause : ε}
    (h : (r.perform a).1 = .error cause) :
    performAll (a :: rest) r = (.error cause, (r.perform a).2) := by
  rw [performAll]
  cases hr : r.perform a with
  | mk answer r' =>
    rw [hr] at h
    obtain rfl : answer = .error cause := h
    rfl

/-- Actions that can always be carried out are all carried out. -/
theorem performAll_of_forall {actions : List Action}
    (h : ∀ a ∈ actions, ∀ s : Run G σ, (s.perform a).1 = .ok ()) (r : Run G σ) :
    (performAll actions r).1 = .ok () := by
  induction actions generalizing r with
  | nil => rfl
  | cons a rest ih =>
    obtain ⟨ha, hrest⟩ := List.forall_mem_cons.mp h
    rw [performAll_cons_of_ok (ha r)]
    exact ih hrest _

/-- Runs that every action answers alike and keeps related are answered alike by all of them. -/
theorem performAll_related {R : Run G σ → Run G σ → Prop}
    (hperform : ∀ a r s, R r s → (r.perform a).1 = (s.perform a).1 ∧ R (r.perform a).2 (s.perform a).2)
    (actions : List Action) {r s : Run G σ} (h : R r s) :
    (performAll actions r).1 = (performAll actions s).1 ∧
      R (performAll actions r).2 (performAll actions s).2 := by
  induction actions generalizing r s with
  | nil => exact ⟨rfl, h⟩
  | cons a rest ih =>
    obtain ⟨hanswer, hrelated⟩ := hperform a r s h
    cases hr : (r.perform a).1 with
    | error cause =>
      rw [performAll_cons_of_error hr, performAll_cons_of_error (hanswer.symm.trans hr)]
      exact ⟨rfl, hrelated⟩
    | ok u =>
      rw [performAll_cons_of_ok hr, performAll_cons_of_ok (hanswer.symm.trans hr)]
      exact ih hrelated

theorem controller_performAll (actions : List Action) (r : Run G σ) :
    (performAll actions r).2.controller = r.controller :=
  performAll_induction (P := fun s => s.controller = r.controller)
    (fun a _ s h => (controller_perform s a).trans h) rfl

/-- A line of the log for each line asked for, and a broadcast on record for each broadcast. -/
theorem report_perform (r : Run G σ) (a : Action) :
    (r.perform a).2.log.toList = r.log.toList ++ a.line?.toList ∧
      (r.perform a).2.broadcasts.toList.map (·.bindings) =
        r.broadcasts.toList.map (·.bindings) ++ a.bindings?.toList := by
  cases a <;> simp [perform, Action.line?, Action.bindings?]

theorem report_performAll {actions : List Action} {r : Run G σ}
    (h : (performAll actions r).1 = .ok ()) :
    (performAll actions r).2.log.toList = r.log.toList ++ actions.filterMap (·.line?) ∧
      (performAll actions r).2.broadcasts.toList.map (·.bindings) =
        r.broadcasts.toList.map (·.bindings) ++ actions.filterMap (·.bindings?) := by
  induction actions generalizing r with
  | nil => simp [performAll]
  | cons a rest ih =>
    obtain ⟨hline, hbindings⟩ := report_perform r a
    unfold performAll at h ⊢
    cases hr : r.perform a with
    | mk answer r' =>
      rw [hr] at hline hbindings
      cases answer with
      | error e => simp [hr] at h
      | ok u =>
        rw [hr] at h
        obtain ⟨hlog, hbroadcasts⟩ := ih h
        constructor
        · rw [hlog, hline, List.append_assoc]
          cases ha : a.line? <;> simp [ha]
        · rw [hbroadcasts, hbindings, List.append_assoc]
          cases ha : a.bindings? <;> simp [ha]

theorem broadcasts_performAll {actions : List Action} (h : actions.filterMap (·.bindings?) = [])
    (r : Run G σ) : (performAll actions r).2.broadcasts = r.broadcasts := by
  refine performAll_induction (P := fun s : Run G σ => s.broadcasts = r.broadcasts)
    (fun a ha s hs => ?_) rfl
  have hnone := List.filterMap_eq_nil_iff.mp h a ha
  cases a with
  | broadcast bindings => cases hnone
  | _ => exact hs

variable [WordSource G]

theorem step_of_refused {r : Run G σ} {e : Controller.Event} {cause : Controller.Misuse}
    (h : r.controller.handle e = .error cause) :
    r.step e = (.error (.controller cause), r) := by
  rw [Run.step, h]

/-- The run that carries out a reaction. -/
def adopt (r : Run G σ) (reaction : Controller.Reaction G) : Run G σ :=
  { r with controller := reaction.controller, trace := r.trace ++ reaction.trace }

/-- An accepted event is answered by its actions, and the last verdict among them counts. -/
theorem step_of_handle {r : Run G σ} {e : Controller.Event} {reaction : Controller.Reaction G}
    (h : r.controller.handle e = .ok reaction) :
    r.step e = (((Run.performAll reaction.actions (r.adopt reaction)).1.mapError .simulator).map
        fun _ => (reaction.actions.filterMap (·.verdict?)).getLast?,
      (Run.performAll reaction.actions (r.adopt reaction)).2) := by
  rw [Run.step, h]
  dsimp only [adopt]
  cases Run.performAll reaction.actions { r with
      controller := reaction.controller, trace := r.trace ++ reaction.trace } with
  | mk answer r' => cases answer <;> rfl

theorem controller_step (r : Run G σ) (e : Event) :
    (r.step e).2.controller = r.controller.after e := by
  cases hr : r.controller.handle e with
  | error cause => rw [step_of_refused hr, after, hr]
  | ok reaction =>
    rw [step_of_handle hr, controller_performAll, after_of_handle hr]
    rfl

/-- All that an event adds to a run if nothing is refused. -/
theorem step_eq_ok {r : Run G σ} {e : Event} {v? : Option Verdict} (h : (r.step e).1 = .ok v?) :
    ∃ actions, r.controller.answer e = .ok actions ∧
      v? = (actions.filterMap (·.verdict?)).getLast? ∧
      (r.step e).2.log.toList = r.log.toList ++ actions.filterMap (·.line?) ∧
      (r.step e).2.broadcasts.toList.map (·.bindings) =
        r.broadcasts.toList.map (·.bindings) ++ actions.filterMap (·.bindings?) := by
  cases hr : r.controller.handle e with
  | error cause => simp [step_of_refused hr] at h
  | ok reaction =>
    rw [step_of_handle hr] at h ⊢
    cases hp : (performAll reaction.actions (r.adopt reaction)).1 with
    | error cause =>
      rw [hp] at h
      cases h
    | ok u =>
      obtain ⟨hlog, hbroadcasts⟩ := report_performAll hp
      rw [hp] at h
      exact ⟨reaction.actions, answer_of_handle hr, (Except.ok.inj h).symm, hlog, hbroadcasts⟩

/-- A start brings no verdict. -/
theorem step_start {r : Run G σ} (hs : r.controller.stage = .armed) {now : Instant}
    {v? : Option Verdict} (h : (r.step (.start now)).1 = .ok v?) : v? = none := by
  obtain ⟨actions, hanswer, rfl, -, -⟩ := step_eq_ok h
  rw [answer_of_handle (handle_start hs now)] at hanswer
  rw [← Except.ok.inj hanswer, verdicts_start]
  rfl

theorem stage_step_start {r : Run G σ} (hs : r.controller.stage = .armed) (now : Instant) :
    (r.step (.start now)).2.controller.stage = .running := by
  rw [controller_step, after_of_handle (handle_start hs now)]
  rfl

theorem proceed_of_error {r : Run G σ} {c : Cursor} {cause : WaitError}
    (h : (r.await c).outcome = .error cause) :
    r.proceed c = ({ r with sim := (r.await c).sim, trace := r.trace ++ (r.await c).trace } :
      Run G σ).fail (r.await c).cursor (.wait cause) := by
  rw [proceed]
  split
  · rename_i cause' h'
    obtain rfl := Except.error.inj (h.symm.trans h')
    rfl
  · rename_i d h'
    simp [h] at h'

/-- What becomes of a run once a delivery was taken and answered. -/
def resume (next : Run G σ → Outcome σ ε) (cursor : Cursor) :
    Except (RunError ε) (Option Verdict) × Run G σ → Outcome σ ε
  | (.error e, r) => r.fail cursor e
  | (.ok (some v), r) => r.close cursor v
  | (.ok none, r) => next r

theorem proceed_of_ok {r : Run G σ} {c : Cursor} {d : Delivery} (h : (r.await c).outcome = .ok d) :
    r.proceed c = resume (·.proceed (r.await c).cursor) (r.await c).cursor
      (({ r with sim := (r.await c).sim, trace := r.trace ++ (r.await c).trace } :
        Run G σ).step d.toEvent) := by
  rw [proceed]
  split
  · rename_i cause h'
    simp [h] at h'
  · rename_i d' h'
    obtain rfl := Except.ok.inj (h.symm.trans h')
    split <;> rename_i heq <;> rw [heq] <;> rfl

end Run

end MoteBench
