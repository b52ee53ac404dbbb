import MoteBench.Proofs.Run.Recorded

/-!
Two simulations that no run can tell apart. They are observed together, as one simulation of pairs
that forgets its right half, or as well its left one: so what a run makes of one is what it makes of
the other.
-/
namespace MoteBench

open MoteBench.Random Memory Controller

variable {G σ τ ν ε : Type} [Simulator σ ν ε] [Simulator τ ν ε] {R : σ → τ → Prop}

/-- What `R` relates gives the same answers, and `R` relates what comes of it. -/
structure Simulator.Bisimulation (R : σ → τ → Prop) : Prop where
  now : ∀ {s t}, R s t → Simulator.now t = Simulator.now s
  seed : ∀ {s t}, R s t → Simulator.seed t = Simulator.seed s
  armTimeout : ∀ {s t}, R s t → ∀ after,
    R (Simulator.armTimeout s after).2.1 (Simulator.armTimeout t after).2.1 ∧
      (Simulator.armTimeout t after).1 = (Simulator.armTimeout s after).1 ∧
      (Simulator.armTimeout t after).2.2 = (Simulator.armTimeout s after).2.2
  generate : ∀ {s t}, R s t → ∀ delay payload,
    R (Simulator.generate s delay payload).2.1 (Simulator.generate t delay payload).2.1 ∧
      (Simulator.generate t delay payload).1 = (Simulator.generate s delay payload).1 ∧
      (Simulator.generate t delay payload).2.2 = (Simulator.generate s delay payload).2.2
  next : ∀ {s t}, R s t → R (Simulator.next s).2 (Simulator.next t).2 ∧
    (Simulator.next t).1 = (Simulator.next s).1
  nodes : ∀ {s t}, R s t → Simulator.nodes t = Simulator.nodes s
  withNodes : ∀ {s t}, R s t → ∀ nodes,
    R (Simulator.withNodes s nodes) (Simulator.withNodes t nodes)

/-- Two related simulations, side by side. -/
structure Simulator.Coupled (h : Simulator.Bisimulation R) where
  left : σ
  right : τ
  related : R left right

namespace Simulator.Coupled

variable {h : Simulator.Bisimulation R}

instance : Simulator (Coupled h) ν ε where
  now s := Simulator.now s.left
  seed s := Simulator.seed s.left
  armTimeout s after :=
    let answer := Simulator.armTimeout s.left after
    (answer.1, ⟨answer.2.1, _, (h.armTimeout s.related after).1⟩, answer.2.2)
  generate s delay payload :=
    let answer := Simulator.generate s.left delay payload
    (answer.1, ⟨answer.2.1, _, (h.generate s.related delay payload).1⟩, answer.2.2)
  next s := ((Simulator.next s.left).1, ⟨(Simulator.next s.left).2, _, (h.next s.related).1⟩)
  nodes s := Simulator.nodes s.left
  withNodes s nodes := ⟨Simulator.withNodes s.left nodes, _, h.withNodes s.related nodes⟩

theorem hom_left : Simulator.Hom (left : Coupled h → σ) :=
  ⟨fun _ => rfl, fun _ => rfl, fun _ _ => rfl, fun _ _ _ => rfl, fun _ => rfl, fun _ => rfl,
    fun _ _ => rfl⟩

theorem hom_right : Simulator.Hom (right : Coupled h → τ) where
  now s := h.now s.related
  seed s := h.seed s.related
  armTimeout s after :=
    have answers := (h.armTimeout s.related after).2
    Prod.ext answers.1 (Prod.ext rfl answers.2)
  generate s delay payload :=
    have answers := (h.generate s.related delay payload).2
    Prod.ext answers.1 (Prod.ext rfl answers.2)
  next s := Prod.ext (h.next s.related).2 rfl
  nodes s := h.nodes s.related
  withNodes _ _ := rfl

end Simulator.Coupled

/-- The outcomes differ at most in the simulations, and these are related. -/
structure Outcome.Related (R : σ → τ → Prop) (o : Outcome σ ε) (p : Outcome τ ε) : Prop where
  result : p.result = o.result
  sim : R o.sim p.sim
  trace : p.trace = o.trace

variable [Node ν]

/-- A run comes to the same on related simulations. -/
theorem Controller.related_run [WordSource G] (h : Simulator.Bisimulation R) {s : σ} {t : τ}
    (hst : R s t) (c : Controller G) (cursor : Cursor) :
    (c.run s cursor).Related R (c.run t cursor) := by
  let coupled : Simulator.Coupled h := ⟨s, t, hst⟩
  have hleft : c.run s cursor = (c.run coupled cursor).map Simulator.Coupled.left :=
    c.run_map Simulator.Coupled.hom_left coupled cursor
  have hright : c.run t cursor = (c.run coupled cursor).map Simulator.Coupled.right :=
    c.run_map Simulator.Coupled.hom_right coupled cursor
  rw [hleft, hright]
  exact ⟨rfl, (c.run coupled cursor).sim.related, rfl⟩

theorem Plan.related_run (h : Simulator.Bisimulation R) {s : σ} {t : τ} (hst : R s t) (plan : Plan)
    (cursor : Cursor) : (plan.run s cursor).Related R (plan.run t cursor) := by
  obtain ⟨hresult, hsim, htrace⟩ :=
    (Controller.ofSeed plan (Simulator.seed s)).related_run h hst cursor
  unfold Plan.run
  rw [h.seed hst]
  exact ⟨hresult, hsim, congrArg _ htrace⟩

end MoteBench
