import MoteBench.Proofs.Run.Plain

/-!
A simulation under observation: every answer it gives to the request for the next delivery is kept.
Observation changes no run, since a run sees no more of a simulation than its answers.
-/
namespace MoteBench

open MoteBench.Random Memory Controller

/-- All that `f` forgets about a simulation is out of sight for a run. -/
structure Simulator.Hom {σ τ ν ε : Type} [Simulator σ ν ε] [Simulator τ ν ε] (f : σ → τ) :
    Prop where
  now : ∀ s, Simulator.now (f s) = Simulator.now s
  seed : ∀ s, Simulator.seed (f s) = Simulator.seed s
  armTimeout : ∀ s after, Simulator.armTimeout (f s) after =
    ((Simulator.armTimeout s after).1, f (Simulator.armTimeout s after).2.1,
      (Simulator.armTimeout s after).2.2)
  generate : ∀ s delay payload, Simulator.generate (f s) delay payload =
    ((Simulator.generate s delay payload).1, f (Simulator.generate s delay payload).2.1,
      (Simulator.generate s delay payload).2.2)
  next : ∀ s, Simulator.next (f s) = ((Simulator.next s).1, f (Simulator.next s).2)
  nodes : ∀ s, Simulator.nodes (f s) = Simulator.nodes s
  withNodes : ∀ s nodes, Simulator.withNodes (f s) nodes = f (Simulator.withNodes s nodes)

section Map

variable {G σ τ ν ε : Type}

def Waited.map (f : σ → τ) (w : Waited σ) : Waited τ := { w with sim := f w.sim }

def Outcome.map (f : σ → τ) (o : Outcome σ ε) : Outcome τ ε := { o with sim := f o.sim }

def Run.map (f : σ → τ) (r : Run G σ) : Run G τ := { r with sim := f r.sim }

theorem Outcome.Agrees.map {o p : Outcome σ ε} (h : o.Agrees p) (f : σ → τ) :
    (o.map f).Agrees (p.map f) :=
  ⟨h.result, congrArg f h.sim, h.cursor⟩

variable [Simulator σ ν ε] [Simulator τ ν ε] {f : σ → τ} (hf : Simulator.Hom f)
include hf

theorem Cursor.awaitNext_map (c : Cursor) (sim : σ) :
    c.awaitNext (f sim) = (c.awaitNext sim).map f := by
  unfold awaitNext
  rw [hf.now, hf.next]
  split
  · rfl
  · cases hn : Simulator.next sim with
    | mk d sim' =>
      cases d with
      | none => simp [Waited.map, hf.now]
      | some d => rfl

theorem Cursor.awaitUntil_map (wanted : Message → Bool) (c : Cursor) (sim : σ) :
    c.awaitUntil wanted (f sim) = (c.awaitUntil wanted sim).map f := by
  have hnext := c.awaitNext_map hf sim
  have houtcome : (c.awaitNext (f sim)).outcome = (c.awaitNext sim).outcome := by rw [hnext]; rfl
  rcases unwanted_or_wanted wanted c sim with ⟨m, hm, hw⟩ | h
  · have := remaining_awaitNext hm
    rw [awaitUntil_of_unwanted hm hw, awaitUntil_of_unwanted (houtcome.trans hm) hw, hnext]
    exact congrArg (fun rest : Waited τ => { rest with trace := .skipping m :: rest.trace })
      (awaitUntil_map wanted (c.awaitNext sim).cursor (c.awaitNext sim).sim)
  · have h' := fun m hm => h m (houtcome.symm.trans hm)
    rw [awaitUntil_of_wanted h, awaitUntil_of_wanted h', hnext]
termination_by c.remaining

namespace Run

theorem await_map (r : Run G σ) (c : Cursor) : (r.map f).await c = (r.await c).map f := by
  unfold await
  have hcontroller : (r.map f).controller = r.controller := rfl
  rw [hcontroller]
  cases r.controller.wait with
  | any => exact c.awaitNext_map hf r.sim
  | cue text => exact c.awaitUntil_map hf r.controller.wakesOn r.sim

theorem resume_map {next : Run G τ → Outcome τ ε} {next' : Run G σ → Outcome σ ε}
    (r : Except (RunError ε) (Option Verdict) × Run G σ) (c : Cursor)
    (hnext : ∀ s, next (s.map f) = (next' s).map f) :
    resume next c (r.1, r.2.map f) = (resume next' c r).map f := by
  obtain ⟨v?, r⟩ := r
  cases v? with
  | error e => rfl
  | ok v? =>
    cases v? with
    | none => exact hnext r
    | some v => simp [resume, close, Outcome.map, map, hf.now]

variable [Node ν]

theorem perform_map (r : Run G σ) (a : Action) :
    (r.map f).perform a = ((r.perform a).1, (r.perform a).2.map f) := by
  cases a with
  | log severity line => rfl
  | armTimeout after => simp [perform, map, hf.armTimeout]
  | broadcast bindings => simp [perform, map, hf.nodes, hf.withNodes, hf.now]
  | generate delay payload => simp [perform, map, hf.generate]
  | finish v => rfl

theorem performAll_map (actions : List Action) (r : Run G σ) :
    performAll actions (r.map f) = ((performAll actions r).1, (performAll actions r).2.map f) := by
  induction actions generalizing r with
  | nil => rfl
  | cons a rest ih =>
    unfold performAll
    rw [perform_map hf]
    cases r.perform a with
    | mk answer r' =>
      cases answer with
      | error e => rfl
      | ok u => exact ih r'

variable [WordSource G]

theorem step_map (r : Run G σ) (e : Event) :
    (r.map f).step e = ((r.step e).1, (r.step e).2.map f) := by
  have hcontroller : (r.map f).controller = r.controller := rfl
  cases hr : r.controller.handle e with
  | error cause => rw [step_of_refused hr, step_of_refused (hcontroller ▸ hr)]
  | ok reaction =>
    have hadopt : (r.map f).adopt reaction = (r.adopt reaction).map f := rfl
    rw [step_of_handle hr, step_of_handle (hcontroller ▸ hr), hadopt, performAll_map hf]

theorem proceed_map (r : Run G σ) (c : Cursor) : (r.map f).proceed c = (r.proceed c).map f := by
  have hawait := await_map hf r c
  have houtcome : ((r.map f).await c).outcome = (r.await c).outcome := by rw [hawait]; rfl
  cases ho : (r.await c).outcome with
  | error cause =>
    rw [proceed_of_error ho, proceed_of_error (houtcome.trans ho), hawait]
    rfl
  | ok d =>
    have := cursor_await ho
    rw [proceed_of_ok ho, proceed_of_ok (houtcome.trans ho), hawait]
    let waited : Run G σ := { r with sim := (r.await c).sim, trace := r.trace ++ (r.await c).trace }
    change resume (·.proceed (r.await c).cursor) (r.await c).cursor
      ((waited.map f).step d.toEvent) = _
    rw [step_map hf]
    exact resume_map hf _ _ fun s => proceed_map s _
termination_by c.remaining

end Run

theorem Controller.run_map [Node ν] [WordSource G] (c : Controller G) (sim : σ) (cursor : Cursor) :
    c.run (f sim) cursor = (c.run sim cursor).map f := by
  rw [run_eq_resume, run_eq_resume, hf.now]
  let fresh : Run G σ := { controller := c, sim }
  change Run.resume (·.proceed cursor) cursor ((fresh.map f).step (.start (Simulator.now sim))) = _
  rw [Run.step_map hf]
  exact Run.resume_map hf _ _ fun s => Run.proceed_map hf s _

end Map

/-- A simulation and all answers it has given so far to the request for the next delivery. -/
structure Recorded (σ : Type) where
  sim : σ
  answers : List (Option Delivery) := []

namespace Recorded

variable {σ ν ε : Type} [Simulator σ ν ε]

instance : Simulator (Recorded σ) ν ε where
  now s := Simulator.now s.sim
  seed s := Simulator.seed s.sim
  armTimeout s after :=
    let (answer, sim, trace) := Simulator.armTimeout s.sim after
    (answer, { s with sim }, trace)
  generate s delay payload :=
    let (answer, sim, trace) := Simulator.generate s.sim delay payload
    (answer, { s with sim }, trace)
  next s :=
    let (d, sim) := Simulator.next s.sim
    (d, ⟨sim, s.answers ++ [d]⟩)
  nodes s := Simulator.nodes s.sim
  withNodes s nodes := { s with sim := Simulator.withNodes s.sim nodes }

/-- To record is to change nothing. -/
theorem hom : Simulator.Hom (sim : Recorded σ → σ) :=
  ⟨fun _ => rfl, fun _ => rfl, fun _ _ => rfl, fun _ _ _ => rfl, fun _ => rfl, fun _ => rfl,
    fun _ _ => rfl⟩

theorem answers_of_next {s s' : Recorded σ} {d? : Option Delivery}
    (h : Simulator.next s = (d?, s')) : s'.answers = s.answers ++ [d?] := by
  cases h
  rfl

end Recorded

end MoteBench
