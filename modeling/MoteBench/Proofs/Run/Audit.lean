import MoteBench.Proofs.Run.Walk
import MoteBench.World

/-!
What audited access adds to a run. Beside the entries that report the values about to be replaced, an
audited run reports what a quiet one does, and it comes to the same in the same world.
-/
namespace MoteBench

open MoteBench.Random Memory Controller

def Entry.isAudit : Entry → Bool
  | .replacing .. | .readBackFailed .. => true
  | _ => false

/-- What a trace holds beside audits. -/
def unaudited (trace : Trace) : Trace := trace.filter fun e => !e.isAudit

theorem unaudited_append (front back : Trace) :
    unaudited (front ++ back) = unaudited front ++ unaudited back := List.filter_append ..

section Nodes

variable {ν : Type} [Node ν]

theorem unaudited_audit (node : ν) (name : String) (symbol : Symbol) (v : Value) :
    unaudited (audit node name symbol v).2 = [] := by
  unfold audit
  split <;> rfl

/-- A try reports nothing but audits. -/
theorem unaudited_tryWrite (mode : AccessMode) (node : ν) (name : String) (v : Value) :
    unaudited (tryWrite mode node name v).trace = [] := by
  unfold tryWrite
  cases resolve node name v.width with
  | error e => rfl
  | ok symbol =>
    have haudit := unaudited_audit node name symbol v
    cases hs : MemoryImage.store node symbol.address (v.encode (MemoryImage.byteOrder node)) with
    | mk answer stored =>
      cases mode with
      | quiet => cases answer <;> simp [hs, unaudited]
      | audited => cases answer <;> simpa [hs] using haudit

theorem succeeded_write (mode mode' : AccessMode) (node : ν) (name : String) (v : Value) :
    (write mode node name v).succeeded = (write mode' node name v).succeeded := by
  have houtcome := outcome_tryWrite mode mode' node name v
  rw [← outcome_write, ← outcome_write] at houtcome
  unfold Attempt.succeeded
  cases hw : (write mode node name v).outcome <;> cases hw' : (write mode' node name v).outcome <;>
    simp_all [Except.map, Except.toBool]

theorem unaudited_write (mode mode' : AccessMode) (node : ν) (name : String) (v : Value) :
    unaudited (write mode node name v).trace = unaudited (write mode' node name v).trace := by
  have houtcome := outcome_tryWrite mode mode' node name v
  have hnode := node_tryWrite mode mode' node name v
  unfold write
  dsimp only
  cases hw : (tryWrite mode node name v).outcome <;> cases hw' : (tryWrite mode' node name v).outcome <;>
    simp_all [Except.map, unaudited_append, unaudited_tryWrite]

theorem unaudited_broadcast (mode mode' : AccessMode) (b : Binding) (nodes : List ν) :
    unaudited (broadcast mode b nodes).2 = unaudited (broadcast mode' b nodes).2 := by
  have hattempts : unaudited ((nodes.map (write mode · b.name b.value)).flatMap (·.trace)) =
      unaudited ((nodes.map (write mode' · b.name b.value)).flatMap (·.trace)) := by
    induction nodes with
    | nil => rfl
    | cons node nodes ih =>
      simp only [List.map_cons, List.flatMap_cons, unaudited_append, ih,
        unaudited_write mode mode' node b.name b.value]
  have hfailed : (nodes.map (write mode · b.name b.value)).countP (!·.succeeded) =
      (nodes.map (write mode' · b.name b.value)).countP (!·.succeeded) := by
    rw [List.countP_map, List.countP_map]
    apply List.countP_congr
    intro node _
    simp only [Function.comp_apply, succeeded_write mode mode' node]
  simp only [broadcast, unaudited_append, hattempts, hfailed]

theorem unaudited_broadcastAll (mode mode' : AccessMode) (bindings : List Binding) (nodes : List ν) :
    unaudited (broadcastAll mode bindings nodes).2 = unaudited (broadcastAll mode' bindings nodes).2 := by
  induction bindings generalizing nodes with
  | nil => rfl
  | cons b rest ih =>
    have hnodes : (broadcast mode b nodes).1 = (broadcast mode' b nodes).1 :=
      nodes_broadcastAll mode mode' [b] nodes
    simp only [broadcastAll, unaudited_append, unaudited_broadcast mode mode' b nodes, hnodes, ih]

end Nodes

/-- The outcomes differ at most in audits. -/
structure Outcome.Twin {σ ε : Type} (o p : Outcome σ ε) : Prop extends o.Agrees p where
  trace : unaudited o.trace = unaudited p.trace

namespace Run

variable {G σ ν ε : Type}

/-- The runs are alike, and their reports so far differ at most in audits. -/
structure Twin (r s : Run G σ) : Prop extends r.Alike s where
  trace : unaudited r.trace.toList = unaudited s.trace.toList

theorem Twin.adopt {r s : Run G σ} (h : r.Twin s) (reaction : Reaction G) (mode : AccessMode) :
    (r.adopt reaction).Twin (s.adopt (reaction.withAccess mode)) := by
  refine ⟨h.toAlike.adopt reaction mode, ?_⟩
  have hreaction : (reaction.withAccess mode).trace = reaction.trace := rfl
  simp only [Run.adopt, Array.toList_appendList, unaudited_append, h.trace, hreaction]

variable [Simulator σ ν ε]

theorem Twin.resume {r s : Except (RunError ε) (Option Verdict) × Run G σ}
    {next next' : Run G σ → Outcome σ ε} (hfst : r.1 = s.1) (htwin : r.2.Twin s.2)
    (hnext : r.1 = .ok none → (next r.2).Twin (next' s.2)) (c : Cursor) :
    (Run.resume next c r).Twin (Run.resume next' c s) := by
  refine ⟨Alike.resume hfst htwin.toAlike (fun hnone => (hnext hnone).toAgrees) c, ?_⟩
  cases hr : r.1 with
  | error e =>
    rw [resume_of_error hr, resume_of_error (hfst ▸ hr)]
    exact htwin.trace
  | ok v? =>
    cases v? with
    | none =>
      rw [resume_of_none hr, resume_of_none (hfst ▸ hr)]
      exact (hnext hr).trace
    | some v =>
      rw [resume_of_verdict hr, resume_of_verdict (hfst ▸ hr)]
      simp only [close, Array.toList_push, unaudited_append, htwin.trace, htwin.sim]

variable [Node ν]

theorem Twin.perform {r s : Run G σ} (h : r.Twin s) (a : Action) :
    (r.perform a).1 = (s.perform a).1 ∧ (r.perform a).2.Twin (s.perform a).2 := by
  obtain ⟨hanswer, halike⟩ := h.toAlike.perform a
  refine ⟨hanswer, halike, ?_⟩
  have htrace := h.trace
  have hsim := h.sim
  cases a with
  | log severity line => simp only [Run.perform, Array.toList_push, unaudited_append, htrace]
  | armTimeout after => simp only [Run.perform, Array.toList_appendList, unaudited_append, htrace, hsim]
  | broadcast bindings =>
    have hbroadcast := unaudited_broadcastAll r.controller.plan.access s.controller.plan.access
      bindings (Simulator.nodes r.sim)
    simp only [Run.perform, Array.toList_appendList, unaudited_append, htrace, hsim, hbroadcast]
  | generate delay payload =>
    simp only [Run.perform, Array.toList_appendList, unaudited_append, htrace, hsim]
  | finish v => exact htrace

variable [WordSource G]

theorem Twin.step {r s : Run G σ} (h : r.Twin s) (e : Event) :
    (r.step e).1 = (s.step e).1 ∧ (r.step e).2.Twin (s.step e).2 :=
  step_related (fun a _ _ h => h.perform a) (fun _ _ reaction mode h => h.adopt reaction mode)
    h.controller h e

/-- From event to event, twins stay twins. -/
theorem Twin.proceed {r s : Run G σ} (h : r.Twin s) (c : Cursor) :
    (r.proceed c).Twin (s.proceed c) := by
  have hawait := h.toAlike.await c
  have hwaited : (r.waited c).Twin (s.waited c) := by
    refine ⟨⟨h.controller, by rw [waited, waited, hawait], h.broadcasts, h.log⟩, ?_⟩
    simp only [waited, Array.toList_appendList, unaudited_append, h.trace, hawait]
  cases ho : (s.await c).outcome with
  | error cause =>
    refine ⟨h.toAlike.proceed c, ?_⟩
    rw [proceed_of_error (hawait ▸ ho), proceed_of_error ho]
    exact hwaited.trace
  | ok d =>
    have := cursor_await ho
    have hr : r.proceed c = Run.resume (·.proceed (r.await c).cursor) (r.await c).cursor
        ((r.waited c).step d.toEvent) := proceed_of_ok (hawait ▸ ho)
    have hs : s.proceed c = Run.resume (·.proceed (s.await c).cursor) (s.await c).cursor
        ((s.waited c).step d.toEvent) := proceed_of_ok ho
    obtain ⟨hanswer, hstep⟩ := hwaited.step d.toEvent
    rw [hr, hs, hawait]
    refine Twin.resume hanswer hstep (fun _ => ?_) _
    exact hstep.proceed _
termination_by c.remaining

end Run

theorem Controller.twin_run {G σ ν ε : Type} [WordSource G] [Node ν] [Simulator σ ν ε]
    (c : Controller G) (mode : AccessMode) (sim : σ) (cursor : Cursor) :
    (c.run sim cursor).Twin ((c.withAccess mode).run sim cursor) := by
  let r : Run G σ := { controller := c, sim }
  let s : Run G σ := { controller := c.withAccess mode, sim }
  have htwin : r.Twin s := ⟨⟨rfl, rfl, rfl, rfl⟩, rfl⟩
  obtain ⟨hanswer, hstep⟩ := htwin.step (.start (Simulator.now sim))
  rw [run_eq_resume, run_eq_resume]
  refine Run.Twin.resume hanswer hstep (fun _ => ?_) cursor
  exact hstep.proceed cursor

/-- Audited access changes nothing about a run: not what it comes to, not how far it gets, not the
simulation it leaves behind, and not what it reports beside the audits. -/
theorem run_audited {σ ν ε : Type} [Node ν] [Simulator σ ν ε] (plan : Plan) (sim : σ)
    (cursor : Cursor) :
    let audited : Outcome σ ε := { plan with access := .audited : Plan }.run sim cursor
    let quiet : Outcome σ ε := { plan with access := .quiet : Plan }.run sim cursor
    audited.result = quiet.result ∧ audited.sim = quiet.sim ∧ audited.cursor = quiet.cursor ∧
      unaudited audited.trace = unaudited quiet.trace := by
  intro audited quiet
  have htwin := Controller.twin_run (.ofSeed { plan with access := .audited } (Simulator.seed sim))
    .quiet sim cursor
  refine ⟨htwin.result, htwin.sim, htwin.cursor, ?_⟩
  exact congrArg (.preparing (Simulator.seed sim) plan.name :: ·) htwin.trace

/-- The audits are there: one for the one port of the one mote. -/
example :
    let entries (access : AccessMode) : Nat :=
      ({ Plan.tcpFixedPort with access }.run (World.withMotes 1 1) { limit := 1 } :
        Outcome World World.Refusal).trace.length
    entries .audited = entries .quiet + 1 := by decide +kernel

end MoteBench
