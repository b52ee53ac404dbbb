import MoteBench.Proofs.Run.Account
import MoteBench.Proofs.World.Request

/-!
What the limit of a run decides: whether the run may take the deliveries that it takes without a
limit. One that may take them all comes to its report, and one that may not is cut off when it has
taken as many as it may.
-/
namespace MoteBench

open MoteBench.Random Memory Controller

/-- What the limit makes of a run that comes to `report`, and leaves the simulation as `final`, if
it may take enough deliveries. -/
structure Outcome.Limited {σ ν ε : Type} [Simulator σ ν ε] (o : Outcome σ ε) (report : Report)
    (final : σ) (limit : Nat) : Prop where
  whole : report.eventsDelivered ≤ limit → o.result = .ok report ∧ o.sim = final
  cut : limit < report.eventsDelivered →
    o.result = .error (.wait (.limitReached limit (Simulator.now o.sim)))

section Outcome

variable {σ τ ν ε : Type} [Simulator σ ν ε] [Simulator τ ν ε] {o p : Outcome σ ε} {report : Report}
  {final : σ} {limit : Nat}

theorem Outcome.Limited.of_agrees (h : p.Limited report final limit) (hop : o.Agrees p) :
    o.Limited report final limit :=
  ⟨fun hle => hop.result ▸ hop.sim ▸ h.whole hle, fun hlt => hop.result ▸ hop.sim ▸ h.cut hlt⟩

theorem Outcome.Limited.map {f : σ → τ} (hf : Simulator.Hom f) (h : o.Limited report final limit) :
    (o.map f).Limited report (f final) limit where
  whole hle := ⟨(h.whole hle).1, congrArg f (h.whole hle).2⟩
  cut hlt := (h.cut hlt).trans (by rw [← hf.now]; rfl)

end Outcome

namespace Run

variable {G σ ν ε : Type} [WordSource G] [Node ν] [Simulator σ ν ε]

/-- Under `limit` the run `r`, with so many deliveries behind it, takes the first of `pulled` on the
way to its report. -/
structure Limited (r : Run G (Recorded σ)) (delivered : Nat) (pulled : List Delivery)
    (report : Report) (final : Recorded σ) (limit : Nat) : Prop where
  answers : (r.proceedPlainly { limit, delivered }).sim.answers =
    r.sim.answers ++ (pulled.take (limit - delivered)).map some
  outcome : (r.proceedPlainly { limit, delivered }).Limited report final limit

variable {r : Run G (Recorded σ)} {sim : Recorded σ} {delivered limit : Nat} {d : Delivery}
  {pulled : List Delivery} {report : Report} {final : Recorded σ}

/-- A run that may take nothing more is cut off where it stands. -/
theorem limited_of_spent (h : delivered < report.eventsDelivered) :
    r.Limited delivered pulled report final delivered := by
  have hspent := proceedPlainly_of_limit (c := { limit := delivered, delivered }) le_rfl r
  constructor
  · rw [hspent, Nat.sub_self, List.take_zero, List.map_nil, List.append_nil]
    rfl
  · rw [hspent]
    exact ⟨fun hle => absurd h (Nat.not_lt_of_le hle), fun _ => rfl⟩

/-- The report is due with the next delivery. -/
theorem limited_of_verdict (hlimit : delivered < limit)
    (hnext : Simulator.next r.sim = (some d, sim)) {v : Verdict} {c : Cursor}
    (hv : (({ r with sim } : Run G (Recorded σ)).step d.toEvent).1 = .ok (some v))
    (hreport : ((({ r with sim } : Run G (Recorded σ)).step d.toEvent).2.close c v :
      Outcome (Recorded σ) ε).result = .ok report) (hc : c.delivered = delivered + 1) :
    r.Limited delivered [d] report
      (({ r with sim } : Run G (Recorded σ)).step d.toEvent).2.sim limit := by
  have hproceed := (proceedPlainly_of_next (c := { limit, delivered }) hlimit hnext).trans
    (resume_of_verdict hv)
  have htake : [d].take (limit - delivered) = [d] :=
    List.take_of_length_le (Nat.sub_pos_of_lt hlimit)
  obtain rfl := Except.ok.inj hreport
  constructor
  · rw [hproceed, htake]
    exact (answers_step _ _).trans (Recorded.answers_of_next hnext)
  · rw [hproceed]
    refine ⟨fun _ => ⟨by rw [hc]; rfl, rfl⟩, fun hcut => ?_⟩
    exact absurd hcut (Nat.not_lt_of_le (hc ▸ hlimit))

/-- The next delivery leaves the report to the run after it. -/
theorem Limited.of_next (hlimit : delivered < limit) (hnext : Simulator.next r.sim = (some d, sim))
    (hnone : (({ r with sim } : Run G (Recorded σ)).step d.toEvent).1 = .ok none)
    (h : (({ r with sim } : Run G (Recorded σ)).step d.toEvent).2.Limited (delivered + 1) pulled
      report final limit) : r.Limited delivered (d :: pulled) report final limit := by
  have hproceed := (proceedPlainly_of_next (c := { limit, delivered }) hlimit hnext).trans
    (resume_of_none hnone)
  have htake : (d :: pulled).take (limit - delivered) =
      d :: pulled.take (limit - (delivered + 1)) := by
    rw [← Nat.sub_add_cancel (Nat.sub_pos_of_lt hlimit), List.take_succ_cons, Nat.sub_sub]
  constructor
  · rw [hproceed, htake, h.answers, answers_step, Recorded.answers_of_next hnext,
      List.append_assoc]
    rfl
  · rw [hproceed]
    exact h.outcome

/-- A run that reports after it took `pulled` takes the first of them under any other limit, as many
as that allows. -/
theorem limited_proceedPlainly {r : Run G (Recorded σ)} {c : Cursor} {report : Report}
    (h : (r.proceedPlainly c).result = .ok report) :
    ∃ pulled : List Delivery, report.eventsDelivered = c.delivered + pulled.length ∧
      ∀ limit, c.delivered ≤ limit →
        r.Limited c.delivered pulled report (r.proceedPlainly c).sim limit := by
  obtain ⟨d, ho, hcases⟩ := proceedPlainly_eq_ok h
  have hnext := Cursor.next_of_awaitNext ho
  have hcursor := (Cursor.cursor_awaitNext ho).2
  rcases hcases with ⟨v, hv, heq⟩ | ⟨hnone, heq⟩
  · rw [heq] at h ⊢
    have hdelivered : report.eventsDelivered = c.delivered + 1 := by
      rw [← Except.ok.inj h, hcursor]
    refine ⟨[d], hdelivered, fun limit hlimit => ?_⟩
    rcases Nat.lt_or_eq_of_le hlimit with hlt | rfl
    · exact limited_of_verdict hlt hnext hv h (congrArg Cursor.delivered hcursor)
    · exact limited_of_spent (by omega)
  · rw [heq] at h ⊢
    have := Cursor.remaining_awaitNext ho
    obtain ⟨pulled, hdelivered, hlimited⟩ := limited_proceedPlainly h
    rw [hcursor] at hdelivered hlimited ⊢
    dsimp only at hdelivered hlimited
    have htotal : report.eventsDelivered = c.delivered + (d :: pulled).length := by
      rw [hdelivered, List.length_cons]
      omega
    refine ⟨d :: pulled, htotal, fun limit hlimit => ?_⟩
    rcases Nat.lt_or_eq_of_le hlimit with hlt | rfl
    · exact (hlimited limit hlt).of_next hlt hnext hnone
    · exact limited_of_spent (by rw [htotal, List.length_cons]; omega)
termination_by c.remaining

end Run

section Start

variable {G σ ν ε : Type} [WordSource G] [Node ν] [Simulator σ ν ε]

theorem Controller.limited_runPlainly {c : Controller G} (hs : c.stage = .armed) {sim : σ}
    {limit : Nat} {report : Report}
    (h : (c.runPlainly ({ sim } : Recorded σ) { limit }).result = .ok report) :
    ∃ pulled : List Delivery, report.eventsDelivered = pulled.length ∧
      ∀ l, (c.runPlainly ({ sim } : Recorded σ) { limit := l }).sim.answers =
          (pulled.take l).map some ∧
        (c.runPlainly ({ sim } : Recorded σ) { limit := l }).Limited report
          (c.runPlainly ({ sim } : Recorded σ) { limit }).sim l := by
  let r : Run G (Recorded σ) := { controller := c, sim := { sim } }
  obtain ⟨hnone, heq⟩ := runPlainly_eq_ok hs h
  have hstart (l : Nat) : c.runPlainly ({ sim } : Recorded σ) { limit := l } =
      (r.step (.start (Simulator.now sim))).2.proceedPlainly { limit := l } :=
    Run.resume_of_none hnone
  have hsilent : (r.step (.start (Simulator.now sim))).2.sim.answers = [] := Run.answers_step r _
  rw [heq] at h ⊢
  obtain ⟨pulled, hdelivered, hlimited⟩ := Run.limited_proceedPlainly h
  refine ⟨pulled, hdelivered.trans (Nat.zero_add _), fun l => ?_⟩
  have hl := hlimited l (Nat.zero_le l)
  rw [hstart l]
  exact ⟨hl.answers.trans (congrArg (· ++ (pulled.take l).map some) hsilent), hl.outcome⟩

end Start

/-- The limit of a run is a threshold and nothing more. If a run comes to its report after the
deliveries `pulled`, then under the limit `l` it asks for the first `l` of them, skipped ones
included. It comes to the same report and the same simulation if these are all, and else it is cut
off. -/
theorem run_limited {G σ ν ε : Type} [WordSource G] [Node ν] [Simulator σ ν ε] (plan : Plan)
    (ports : Port.Allocator G) (sim : σ) (limit : Nat) :
    let c : Controller G := { plan, ports }
    let outcome (l : Nat) : Outcome σ ε := c.run sim { limit := l }
    let recorded (l : Nat) : Outcome (Recorded σ) ε := c.run { sim } { limit := l }
    ∀ report, (outcome limit).result = .ok report → ∃ pulled : List Delivery,
      report.eventsDelivered = pulled.length ∧ ∀ l,
        (recorded l).map Recorded.sim = outcome l ∧
        (recorded l).sim.answers = (pulled.take l).map some ∧
        (outcome l).Limited report (outcome limit).sim l := by
  intro c outcome recorded report h
  have hs : c.stage = .armed := rfl
  have hforget (l : Nat) : outcome l = (recorded l).map Recorded.sim :=
    c.run_map Recorded.hom ({ sim } : Recorded σ) { limit := l }
  have hagrees (l : Nat) : (recorded l).Agrees (c.runPlainly { sim } { limit := l }) :=
    c.run_agrees_runPlainly hs ({ sim } : Recorded σ) { limit := l }
  obtain ⟨pulled, hdelivered, hlimited⟩ :=
    Controller.limited_runPlainly hs ((Controller.result_recorded hs sim { limit }).trans h)
  refine ⟨pulled, hdelivered, fun l => ?_⟩
  obtain ⟨hanswers, hl⟩ := hlimited l
  refine ⟨(hforget l).symm, (congrArg Recorded.answers (hagrees l).sim).trans hanswers, ?_⟩
  rw [hforget l, hforget limit]
  exact ((hagrees limit).sim ▸ hl.of_agrees (hagrees l)).map Recorded.hom

/-- A message that is skipped in the wait for the cue counts: with it and the failure behind it the
limit is two. -/
theorem run_limited_at_skipped :
    let plan : Plan := { resetCycle := some {} }
    let chatty := ((World.withMotes 7 1).serve (.print (.ofMillis 1) 1 "chatter")).2
    let w := (chatty.serve (.print (.ofMillis 2) 1 "an ERROR here")).2
    let c : Controller KeyStream := { plan, ports := .ofSeed w.seed }
    let outcome (l : Nat) : Outcome World World.Refusal := c.run w { limit := l }
    ∃ report, (outcome 9).result = .ok report ∧ report.eventsDelivered = 2 ∧
      (outcome 2).result = .ok report ∧
      (outcome 1).result = .error (.wait (.limitReached 1 (outcome 1).sim.now)) := by
  intro plan chatty w c outcome
  have hcount : (outcome 9).result.toOption.map (·.eventsDelivered) = some 2 := by decide +kernel
  cases h : (outcome 9).result with
  | error cause =>
    rw [h] at hcount
    cases hcount
  | ok report =>
    rw [h] at hcount
    have htwo : report.eventsDelivered = 2 := Option.some.inj hcount
    obtain ⟨pulled, -, hlimited⟩ := run_limited plan c.ports w 9 report h
    exact ⟨report, rfl, htwo, ((hlimited 2).2.2.whole htwo.le).1,
      (hlimited 1).2.2.cut (by rw [htwo]; decide)⟩

end MoteBench
