import MoteBench.Proofs.Broadcast
import MoteBench.Proofs.Run.Step

/-!
What a run does depends neither on what it has reported so far nor on how it accesses memory. Runs
that differ in nothing else are alike, and stay alike from event to event.
-/
namespace MoteBench

open MoteBench.Random Memory

def Controller.withAccess {G : Type} (c : Controller G) (mode : AccessMode) : Controller G :=
  { c with plan := { c.plan with access := mode } }

/-- Everything but the trace. -/
structure Outcome.Agrees {σ ε : Type} (o p : Outcome σ ε) : Prop where
  result : o.result = p.result
  sim : o.sim = p.sim
  cursor : o.cursor = p.cursor

theorem Outcome.Agrees.trans {σ ε : Type} {o p q : Outcome σ ε} (hop : o.Agrees p)
    (hpq : p.Agrees q) : o.Agrees q :=
  ⟨hop.result.trans hpq.result, hop.sim.trans hpq.sim, hop.cursor.trans hpq.cursor⟩

theorem Outcome.Agrees.symm {σ ε : Type} {o p : Outcome σ ε} (h : o.Agrees p) : p.Agrees o :=
  ⟨h.result.symm, h.sim.symm, h.cursor.symm⟩

namespace Controller

variable {G : Type} [WordSource G]

def Reaction.withAccess (r : Reaction G) (mode : AccessMode) : Reaction G :=
  { r with controller := r.controller.withAccess mode }

theorem turnCycle_withAccess (c : Controller G) (mode : AccessMode) (cycle : ResetCycle)
    (phase : CyclePhase) :
    (c.withAccess mode).turnCycle cycle phase = (c.turnCycle cycle phase).withAccess mode := by
  cases phase <;> rfl

theorem onMessage_withAccess (c : Controller G) (mode : AccessMode) (m : Message) :
    (c.withAccess mode).onMessage m = (c.onMessage m).withAccess mode := by
  have hcycle : (c.withAccess mode).cycle? = c.cycle? := rfl
  have hfails : (c.withAccess mode).plan.fails = c.plan.fails := rfl
  have hpasses : (c.withAccess mode).plan.passes = c.plan.passes := rfl
  have hends : (c.withAccess mode).plan.endsPhase = c.plan.endsPhase := rfl
  simp only [onMessage, hcycle, hfails, hpasses, hends, turnCycle_withAccess]
  split
  · rfl
  · split
    · rfl
    · split <;> split <;> rfl

/-- The access mode is of no concern to a controller. -/
theorem handle_withAccess (c : Controller G) (mode : AccessMode) (e : Event) :
    (c.withAccess mode).handle e = (c.handle e).map (·.withAccess mode) := by
  have hstage : (c.withAccess mode).stage = c.stage := rfl
  unfold handle
  rw [hstage]
  cases c.stage with
  | armed => cases e <;> rfl
  | running =>
    cases e with
    | start now => rfl
    | message m => exact congrArg Except.ok (onMessage_withAccess c mode m)
    | timeout now => rfl
  | ended v => rfl

end Controller

namespace Run

variable {G σ ν ε : Type}

/-- The two runs differ at most in trace and access mode. -/
structure Alike (r s : Run G σ) : Prop where
  controller : s.controller = r.controller.withAccess s.controller.plan.access
  sim : s.sim = r.sim
  broadcasts : s.broadcasts = r.broadcasts
  log : s.log = r.log

theorem Alike.adopt {r s : Run G σ} (h : r.Alike s) (reaction : Controller.Reaction G)
    (mode : AccessMode) : (r.adopt reaction).Alike (s.adopt (reaction.withAccess mode)) :=
  ⟨rfl, h.sim, h.broadcasts, h.log⟩

variable [Node ν] [Simulator σ ν ε]

theorem Alike.perform {r s : Run G σ} (h : r.Alike s) (a : Controller.Action) :
    (r.perform a).1 = (s.perform a).1 ∧ (r.perform a).2.Alike (s.perform a).2 := by
  obtain ⟨hc, hsim, hb, hl⟩ := h
  cases a with
  | log severity line => exact ⟨rfl, hc, hsim, hb, by simp [Run.perform, hl]⟩
  | armTimeout after =>
    simp only [Run.perform, hsim]
    exact ⟨trivial, hc, rfl, hb, hl⟩
  | broadcast bindings =>
    have hnodes := nodes_broadcastAll s.controller.plan.access r.controller.plan.access bindings
      (Simulator.nodes r.sim)
    simp only [Run.perform, hsim, hb, hnodes]
    exact ⟨trivial, hc, rfl, rfl, hl⟩
  | generate delay payload =>
    simp only [Run.perform, hsim]
    exact ⟨trivial, hc, rfl, hb, hl⟩
  | finish v => exact ⟨rfl, hc, hsim, hb, hl⟩

variable [WordSource G]

/-- Runs that differ in access mode take the same step if every action keeps them related. -/
theorem step_related {R : Run G σ → Run G σ → Prop}
    (hperform : ∀ a r s, R r s → (r.perform a).1 = (s.perform a).1 ∧ R (r.perform a).2 (s.perform a).2)
    (hadopt : ∀ r s reaction mode, R r s → R (r.adopt reaction) (s.adopt (reaction.withAccess mode)))
    {r s : Run G σ} (hcontroller : s.controller = r.controller.withAccess s.controller.plan.access)
    (h : R r s) (e : Controller.Event) :
    (r.step e).1 = (s.step e).1 ∧ R (r.step e).2 (s.step e).2 := by
  have hhandle := Controller.handle_withAccess r.controller s.controller.plan.access e
  rw [← hcontroller] at hhandle
  cases hr : r.controller.handle e with
  | error cause =>
    rw [hr] at hhandle
    rw [step_of_refused hr, step_of_refused hhandle]
    exact ⟨rfl, h⟩
  | ok reaction =>
    rw [hr] at hhandle
    obtain ⟨hanswer, hrelated⟩ := performAll_related hperform reaction.actions
      (hadopt r s reaction s.controller.plan.access h)
    rw [step_of_handle hr, step_of_handle hhandle]
    exact ⟨by rw [hanswer]; rfl, hrelated⟩

theorem Alike.step {r s : Run G σ} (h : r.Alike s) (e : Controller.Event) :
    (r.step e).1 = (s.step e).1 ∧ (r.step e).2.Alike (s.step e).2 :=
  step_related (fun a _ _ h => h.perform a) (fun _ _ reaction mode h => h.adopt reaction mode)
    h.controller h e

end Run

end MoteBench
