import MoteBench.Proofs.Run.Schedule

/-!
How long the phases of a reset cycle last. A controller takes any message with the text of the cue
for its own, so a phase lasts its full length only if no mote prints that text in time.
-/
namespace MoteBench

open MoteBench.Random Memory Controller World

/-- Phases of full length between the broadcasts of a run. -/
structure ResetCycle.Lasts (cycle : ResetCycle) (plan : Plan) (broadcasts : List BroadcastRecord) :
    Prop where
  /-- All ports are taken away when the run phase is over. -/
  run : ∀ j before after, broadcasts[2 * j]? = some before → broadcasts[2 * j + 1]? = some after →
    after.bindings = neutralPorts plan.parameters ∧
      after.time.micros = before.time.micros + cycle.runPhase.micros
  /-- They are set again when the reset phase is over. -/
  reset : ∀ j before after, broadcasts[2 * j + 1]? = some before →
    broadcasts[2 * j + 2]? = some after →
      before.bindings = neutralPorts plan.parameters ∧
        after.time.micros = before.time.micros + cycle.resetPhase.micros

theorem ResetCycle.Keeps.lasts {G : Type} [WordSource G] {cycle : ResetCycle} {plan : Plan}
    {ports : Port.Allocator G} {broadcasts : List BroadcastRecord} {n : Nat}
    (h : cycle.Keeps plan ports broadcasts n) : cycle.Lasts plan broadcasts where
  run j before after hbefore hafter := by
    refine ⟨(h.bindings _ after hafter).parked (by omega), ?_⟩
    rw [h.time _ after hafter, h.time _ before hbefore, cycle.boundary_succ,
      CyclePhase.nth_of_even (by omega)]
    rfl
  reset j before after hbefore hafter := by
    refine ⟨(h.bindings _ before hbefore).parked (by omega), ?_⟩
    rw [h.time _ after hafter, h.time _ before hbefore, cycle.boundary_succ,
      CyclePhase.nth_of_odd (by omega)]
    rfl

/-- All phases last their full length in a world of which no message within the budget is a cue, and
at every point of a run at most one cue of the script's own is to come. -/
theorem phases_last {G : Type} [WordSource G] {w : World} (hw : w.Prepared)
    (hmotes : ∀ m ∈ w.pending, m.source ≠ .script) {plan : Plan}
    (hparameters : plan.parameters ≠ []) {cycle : ResetCycle}
    (hcycle : plan.resetCycle = some cycle) (hcue : plan.decides cycle.cue = false)
    (hearly : ∀ m ∈ w.early plan, m.text ≠ cycle.cue) (ports : Port.Allocator G) (limit : Nat) :
    let c : Controller G := { plan, ports }
    (∀ report, (c.run w { limit } : Outcome World World.Refusal).result = .ok report →
      cycle.Lasts plan report.broadcasts) ∧
    ∀ r cursor, (c.begun w).Passes { limit } r cursor →
      r.sim.pending.countP (fun m => m.source = .script ∧ m.text = cycle.cue) ≤ 1 := by
  intro c
  have hlate : ∀ m ∈ w.pending, m.text = cycle.cue →
      m.source ≠ .script ∧ w.now + plan.budget < m.time := by
    refine fun m hm htext => ⟨hmotes m hm, lt_of_not_ge fun hle => ?_⟩
    exact hearly m (List.mem_filter.mpr ⟨hm, decide_eq_true hle⟩) htext
  refine ⟨fun report h => ?_, fun r cursor hpasses => ?_⟩
  · obtain ⟨n, hkeeps, -⟩ := Controller.keeps_run hw hparameters hcycle hcue (p := fun _ => True)
      trivial (fun _ _ => trivial) hlate ports h
    exact hkeeps.lasts
  · obtain ⟨t, -, hcycles⟩ := Controller.cycles_begun hw.fresh hw.reachable.timely
      (hw.reachable.untimed hw.fresh.timeout) hparameters hcycle hcue (p := fun _ => True) trivial
      (fun _ _ => trivial) hlate ports
    obtain ⟨n, hr⟩ := hpasses.cycles hcycles
    obtain ⟨i, -, hpaced⟩ := hr.paced
    exact hpaced.countP_le_one

/-- Phases of ten and five milliseconds, in a world whose mote prints something else. -/
theorem phases_last_beside_output :
    let cycle : ResetCycle := { runPhase := .ofMillis 10, resetPhase := .ofMillis 5 }
    let plan : Plan :=
      { budget := .ofMillis 12
        parameters := [⟨"tcp_test_port", .fixed 1883⟩]
        resetCycle := some cycle }
    let w := ((World.withMotes 1 1).serve (.print (.ofMillis 2) 1 "continued")).2
    let c : Controller KeyStream := { plan, ports := .ofSeed w.seed }
    (w.Prepared ∧ (∀ m ∈ w.pending, m.source ≠ .script) ∧ plan.decides cycle.cue = false ∧
      ∀ m ∈ w.early plan, m.text ≠ cycle.cue) ∧
    ∃ report, (c.run w { limit := 9 } : Outcome World World.Refusal).result = .ok report ∧
      cycle.Lasts plan report.broadcasts := by
  intro cycle plan w c
  have hw : w.Prepared := .serve (.start 1 1 (by decide)) _ rfl
  have hmotes : ∀ m ∈ w.pending, m.source ≠ .script := by decide +kernel
  have hcue : plan.decides cycle.cue = false := by decide +kernel
  have hearly : ∀ m ∈ w.early plan, m.text ≠ cycle.cue := by decide +kernel
  have hok : (c.run w { limit := 9 } : Outcome World World.Refusal).result.isOk = true := by
    decide +kernel
  have hlasts := (phases_last hw hmotes (List.cons_ne_nil _ _) rfl hcue hearly c.ports 9).1
  refine ⟨⟨hw, hmotes, hcue, hearly⟩, ?_⟩
  cases h : (c.run w { limit := 9 } : Outcome World World.Refusal).result with
  | error cause =>
    rw [h] at hok
    cases hok
  | ok report => exact ⟨report, rfl, hlasts report h⟩

/-- A mote that prints the cue two milliseconds into a run phase of ten ends the phase. The cue of
the script's own then ends the reset phase, and the one that the mote brought about ends the next run
phase as it begins. -/
theorem phases_cut_short :
    let cycle : ResetCycle := { runPhase := .ofMillis 10, resetPhase := .ofMillis 5 }
    let plan : Plan :=
      { budget := .ofMillis 12
        parameters := [⟨"tcp_test_port", .fixed 1883⟩]
        resetCycle := some cycle }
    let w := ((World.withMotes 1 1).serve (.print (.ofMillis 2) 1 "continue")).2
    let c : Controller KeyStream := { plan, ports := .ofSeed w.seed }
    (w.Prepared ∧ (∀ m ∈ w.pending, m.source ≠ .script) ∧ plan.decides cycle.cue = false) ∧
    ∃ report, (c.run w { limit := 9 } : Outcome World World.Refusal).result = .ok report ∧
      report.broadcasts.map (·.time.micros) = [0, 2000, 10000, 10000] ∧
      ¬ cycle.Lasts plan report.broadcasts := by
  intro cycle plan w c
  have hw : w.Prepared := .serve (.start 1 1 (by decide)) _ rfl
  have hmotes : ∀ m ∈ w.pending, m.source ≠ .script := by decide +kernel
  have hcue : plan.decides cycle.cue = false := by decide +kernel
  have htimes : (c.run w { limit := 9 } : Outcome World World.Refusal).result.toOption.map
      (fun report => report.broadcasts.map (·.time.micros)) = some [0, 2000, 10000, 10000] := by
    decide +kernel
  refine ⟨⟨hw, hmotes, hcue⟩, ?_⟩
  cases h : (c.run w { limit := 9 } : Outcome World World.Refusal).result with
  | error cause =>
    rw [h] at htimes
    cases htimes
  | ok report =>
    rw [h] at htimes
    have htimes : report.broadcasts.map (·.time.micros) = [0, 2000, 10000, 10000] :=
      Option.some.inj htimes
    refine ⟨report, rfl, htimes, fun hlasts => ?_⟩
    have hat (k time : Nat) (hk : [0, 2000, 10000, 10000][k]? = some time) :
        ∃ record, report.broadcasts[k]? = some record ∧ record.time.micros = time := by
      rwa [← htimes, List.getElem?_map, Option.map_eq_some_iff] at hk
    obtain ⟨first, hfirst, hstart⟩ := hat 0 0 rfl
    obtain ⟨second, hsecond, hcut⟩ := hat 1 2000 rfl
    have hlength := (hlasts.run 0 first second hfirst hsecond).2
    rw [hstart, hcut] at hlength
    exact absurd hlength (by decide +kernel)

end MoteBench
