import MoteBench.Proofs.Run.Cycle

/-!
The whole schedule of a run with a reset cycle. If nothing but its own cue has the text of a cue, a
run changes its phase exactly when the cycle says, as long as that is before the end of its budget.
-/
namespace MoteBench

open MoteBench.Random Memory Controller World

/-- The run of a plan with a reset cycle keeps its schedule, up to the timeout or to a message that
decides it. -/
theorem Controller.keeps_run {G : Type} [WordSource G] {w : World} (hw : w.Prepared) {plan : Plan}
    (hparameters : plan.parameters ≠ []) {cycle : ResetCycle}
    (hcycle : plan.resetCycle = some cycle) (hcue : plan.decides cycle.cue = false)
    {p : String → Prop} (hp : p cycle.cue) (htexts : ∀ m ∈ w.pending, p m.text)
    (hlate : ∀ m ∈ w.pending, m.text = cycle.cue →
      m.source ≠ .script ∧ w.now + plan.budget < m.time) (ports : Port.Allocator G)
    {cursor : Cursor} {report : Report}
    (h : (Controller.run { plan, ports } w cursor : Outcome World World.Refusal).result =
      .ok report) :
    ∃ n, cycle.Keeps plan ports report.broadcasts n ∧
      (1 ≤ n → cycle.boundary n < (w.now + plan.budget).micros) ∧
      ((∃ text, p text ∧ plan.decides text = true) ∨
        (w.now + plan.budget).micros ≤ cycle.boundary (n + 1) ∧
          report.log.count "Reset ports" = (n + 1) / 2) := by
  obtain ⟨t, hdue, hcycles⟩ := Controller.cycles_begun hw.fresh hw.reachable.timely
    (hw.reachable.untimed hw.fresh.timeout) hparameters hcycle hcue hp htexts
    hlate ports
  obtain ⟨-, heq⟩ := run_eq_ok rfl h
  rw [heq] at h
  obtain ⟨s, cursor', d, hpasses, hreports, -⟩ := Run.proceed_eq_ok h
  obtain ⟨n, hs⟩ := hpasses.cycles hcycles
  obtain ⟨hbroadcasts, hend⟩ := hs.report hreports
  refine ⟨n, hbroadcasts ▸ hs.keeps, fun hn => hdue ▸ hs.reached hn, ?_⟩
  refine hend.imp_right fun ⟨hbefore, hlines⟩ => ⟨?_, hlines⟩
  rw [← hdue]
  exact le_trans (Instant.le_iff.mp hbefore) (min_le_left _ _)

end MoteBench
