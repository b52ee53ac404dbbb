import MoteBench.Proofs.Port.Draws
import MoteBench.Proofs.Run.Account

/-!
Where the ports of a run come from. Whatever a controller is told, its draws are the first ports of
its allocator, in order and without a gap, and each goes into a broadcast. Runs from the same seed
therefore draw the same ports, one of them perhaps more than the other.
-/
namespace MoteBench

open MoteBench.Random Memory Controller

namespace Controller

variable {G : Type}

/-- Whether an event makes the controller draw ports: an accepted start, a phase marker outside a
reset cycle, or the cue that ends a reset phase. -/
def draws (c : Controller G) : Event → Bool
  | .start _ => c.stage = .armed
  | .message m =>
    c.stage = .running && !c.plan.decides m.text && match c.cycle? with
      | none => c.plan.endsPhase m.text
      | some (cycle, phase) => m.text = cycle.cue && phase = .parked
  | .timeout _ => false

/-- Whether an event makes the controller take all ports away: the cue that ends a run phase. -/
def parks (c : Controller G) : Event → Bool
  | .message m =>
    c.stage = .running && !c.plan.decides m.text && match c.cycle? with
      | none => false
      | some (cycle, phase) => m.text = cycle.cue && phase = .configured
  | _ => false

variable [WordSource G]

theorem bindings_start (c : Controller G) (now : Instant) :
    (c.start now).actions.filterMap (·.bindings?) =
      if c.plan.parameters = [] then [] else [(drawPorts c.plan.parameters c.ports).1] := by
  have hpacing : (c.plan.resetCycle.toList.map fun cycle =>
      Action.generate cycle.runPhase cycle.cue).filterMap (·.bindings?) = [] := by
    cases c.plan.resetCycle <;> rfl
  simp only [start, List.filterMap_append, hpacing, isEmpty_drawPorts]
  split <;> rfl

/-- What an event makes the controller broadcast, and where it leaves the allocator. -/
inductive Sets (c : Controller G) (e : Event) : List (List Binding) → Port.Allocator G → Prop where
  | drawn (hd : c.draws e) (hp : c.parks e = false) :
      Sets c e [(drawPorts c.plan.parameters c.ports).1] (drawPorts c.plan.parameters c.ports).2.1
  | neutral (hd : c.draws e = false) (hp : c.parks e) :
      Sets c e [neutralPorts c.plan.parameters] c.ports
  | nothing (hd : c.draws e = true → c.plan.parameters = []) (hp : c.parks e = false) :
      Sets c e [] c.ports

theorem sets_of_silent {c : Controller G} {e : Event} (hd : c.draws e = false)
    (hp : c.parks e = false) (hemits : (c.emits e).filterMap (·.bindings?) = [])
    (hports : (c.after e).ports = c.ports) :
    Sets c e ((c.emits e).filterMap (·.bindings?)) (c.after e).ports := by
  rw [hemits, hports]
  exact .nothing (by simp [hd]) hp

theorem sets_of_refused {c : Controller G} {e : Event} {cause : Misuse}
    (h : c.answer e = .error cause) (hd : c.draws e = false) (hp : c.parks e = false) :
    Sets c e ((c.emits e).filterMap (·.bindings?)) (c.after e).ports :=
  sets_of_silent hd hp (by rw [emits_of_refused h]; rfl) (by rw [after_of_refused h])

theorem sets_start {c : Controller G} (hs : c.stage = .armed) (now : Instant) :
    Sets c (.start now) ((c.emits (.start now)).filterMap (·.bindings?))
      (c.after (.start now)).ports := by
  have hparks : c.parks (.start now) = false := rfl
  rw [emits_of_handle (handle_start hs now), after_of_handle (handle_start hs now), bindings_start]
  have hports : (c.start now).controller.ports = (drawPorts c.plan.parameters c.ports).2.1 := rfl
  rw [hports]
  split
  · rename_i hnone
    have hsame : (drawPorts c.plan.parameters c.ports).2.1 = c.ports := by rw [hnone]; rfl
    rw [hsame]
    exact .nothing (fun _ => hnone) hparks
  · exact .drawn (decide_eq_true hs) hparks

/-- A message that ends the run sets nothing. -/
theorem sets_of_decides {c : Controller G} (hs : c.stage = .running) {m : Message}
    (h : c.plan.decides m.text = true) :
    Sets c (.message m) ((c.emits (.message m)).filterMap (·.bindings?))
      (c.after (.message m)).ports := by
  obtain ⟨evidence, v, hevidence, heq⟩ := onMessage_of_decides h
  apply sets_of_silent (by simp [draws, h]) (by simp [parks, h])
  · rw [emits_of_handle (handle_message hs m), heq]
    exact filterMap_finish (fun _ _ => rfl) (fun _ => rfl) c hevidence v
  · rw [after_of_handle (handle_message hs m), heq]
    rfl

theorem sets_of_not_decides {c : Controller G} (hs : c.stage = .running) {m : Message}
    (h : c.plan.decides m.text = false) :
    Sets c (.message m) ((c.emits (.message m)).filterMap (·.bindings?))
      (c.after (.message m)).ports := by
  have hdraws : c.draws (.message m) = match c.cycle? with
      | none => c.plan.endsPhase m.text
      | some (cycle, phase) => m.text = cycle.cue && phase = .parked := by simp [draws, hs, h]
  have hparks : c.parks (.message m) = match c.cycle? with
      | none => false
      | some (cycle, phase) => m.text = cycle.cue && phase = .configured := by simp [parks, hs, h]
  rw [emits_of_handle (handle_message hs m), after_of_handle (handle_message hs m),
    onMessage_of_not_decides h]
  cases hc : c.cycle? with
  | none =>
    rw [hc] at hdraws hparks
    dsimp only at hdraws ⊢
    split
    · rename_i hmarker
      exact .drawn (hdraws.trans hmarker) hparks
    · rename_i hmarker
      exact .nothing (by simp [hdraws, hmarker]) hparks
  | some cp =>
    obtain ⟨cycle, phase⟩ := cp
    rw [hc] at hdraws hparks
    dsimp only at hdraws hparks ⊢
    split
    · rename_i hcue
      cases phase with
      | configured => exact .neutral (by simp [hdraws]) (by simp [hparks, hcue])
      | parked => exact .drawn (by simp [hdraws, hcue]) (by simp [hparks])
    · rename_i hcue
      exact .nothing (by simp [hdraws, hcue]) (by simp [hparks, hcue])

/-- One event, whatever stage it finds the controller in. -/
theorem sets_emits (c : Controller G) (e : Event) :
    Sets c e ((c.emits e).filterMap (·.bindings?)) (c.after e).ports := by
  cases hs : c.stage with
  | armed =>
    cases e with
    | start now => exact sets_start hs now
    | message m =>
      exact sets_of_refused (answer_eq_error_iff.mpr (.inl ⟨hs, ⟨m, rfl⟩, rfl⟩))
        (by simp [draws, hs]) (by simp [parks, hs])
    | timeout now =>
      exact sets_of_refused (answer_eq_error_iff.mpr (.inr (.inl ⟨hs, ⟨now, rfl⟩, rfl⟩))) rfl rfl
  | running =>
    cases e with
    | start now =>
      exact sets_of_refused (answer_eq_error_iff.mpr (.inr (.inr ⟨hs, ⟨now, rfl⟩, rfl⟩)))
        (by simp [draws, hs]) rfl
    | message m =>
      cases hd : c.plan.decides m.text with
      | true => exact sets_of_decides hs hd
      | false => exact sets_of_not_decides hs hd
    | timeout now =>
      apply sets_of_silent rfl rfl
      · rw [emits_of_handle (handle_timeout hs now)]
        exact filterMap_finish (fun _ _ => rfl) (fun _ => rfl) c (by simp) _
      · rw [after_of_handle (handle_timeout hs now)]
        rfl
  | ended v =>
    have hh := handle_ended hs e
    apply sets_of_silent
    · cases e <;> simp [draws, hs]
    · cases e <;> simp [parks, hs]
    · rw [emits_of_handle hh]
      rfl
    · rw [after_of_handle hh]

theorem bindings_emits_eq_nil {c : Controller G} {e : Event} (hd : c.draws e = false)
    (hp : c.parks e = false) : (c.emits e).filterMap (·.bindings?) = [] := by
  have hsets := c.sets_emits e
  generalize (c.emits e).filterMap (·.bindings?) = broadcasts at hsets ⊢
  generalize (c.after e).ports = after at hsets
  cases hsets with
  | drawn hd' hp' => cases hd.symm.trans hd'
  | neutral hd' hp' => cases hp.symm.trans hp'
  | nothing hd' hp' => rfl

/-- The values that the drawn broadcasts give to the parameters that are not fixed, one broadcast
after the other. -/
def drawn (c : Controller G) : List Event → List Value
  | [] => []
  | e :: events =>
    (if c.draws e then
      ((c.emits e).filterMap (·.bindings?)).flatMap (drawnValues c.plan.parameters)
    else []) ++ (c.after e).drawn events

theorem drawn_cons (c : Controller G) (e : Event) (events : List Event) :
    ∃ k, c.drawn (e :: events) = (c.ports.draws k).1.map .int16 ++ (c.after e).drawn events ∧
      (c.after e).ports = (c.ports.draws k).2 := by
  have hround := configures_drawPorts c.plan.parameters c.ports
  have hsets := c.sets_emits e
  rw [drawn]
  generalize (c.emits e).filterMap (·.bindings?) = broadcasts at hsets ⊢
  generalize (c.after e).ports = after at hsets ⊢
  cases hsets with
  | drawn hd hp =>
    refine ⟨c.plan.parameters.countP (·.isDrawn), ?_, hround.2⟩
    rw [if_pos hd, List.flatMap_singleton, hround.1.drawnValues_eq]
  | neutral hd hp => exact ⟨0, by rw [if_neg (by simp [hd])]; rfl, rfl⟩
  | nothing hd hp => exact ⟨0, by simp, rfl⟩

theorem drawn_eq (c : Controller G) (events : List Event) :
    ∃ n, c.drawn events = (c.ports.draws n).1.map .int16 ∧
      (c.afterAll events).ports = (c.ports.draws n).2 := by
  induction events generalizing c with
  | nil => exact ⟨0, rfl, rfl⟩
  | cons e events ih =>
    obtain ⟨k, hfirst, hports⟩ := c.drawn_cons e events
    obtain ⟨n, hrest, hafter⟩ := ih (c.after e)
    rw [hports] at hrest hafter
    refine ⟨k + n, ?_, ?_⟩
    · rw [hfirst, hrest, Port.Allocator.draws_add, List.map_append]
    · rw [afterAll_cons, hafter, Port.Allocator.draws_add]

/-- Two controllers with one allocator draw the same, as far as both draw. -/
theorem drawn_comparable (c d : Controller G) (h : c.ports = d.ports) (events events' : List Event) :
    c.drawn events <+: d.drawn events' ∨ d.drawn events' <+: c.drawn events := by
  obtain ⟨m, hc, -⟩ := c.drawn_eq events
  obtain ⟨n, hd, -⟩ := d.drawn_eq events'
  rw [hc, hd, h]
  rcases Nat.le_total m n with hle | hle
  · exact .inl ((d.ports.draws_prefix hle).map _)
  · exact .inr ((d.ports.draws_prefix hle).map _)

/-- What a controller with `plan` may broadcast when it is told `e`. -/
structure Broadcasts (plan : Plan) (c : Controller G) (e : Event) (bindings : List Binding) :
    Prop where
  /-- The variables of the plan, in its order. -/
  names : bindings.map (·.name) = plan.parameters.map (·.variableName)
  width : ∀ b ∈ bindings, b.value.width = .int16
  /-- The ports are drawn, but for the fixed ones, or else all of them are neutral. -/
  values : c.draws e ∧ (∀ p b, (p, b) ∈ plan.parameters.zip bindings → ∀ port,
      p.choice = .fixed port → b.value = .int16 port) ∨
    c.parks e ∧ ∀ b ∈ bindings, b.value = .int16 0

theorem broadcasts_of_mem {c : Controller G} {e : Event} {bindings : List Binding}
    (h : .broadcast bindings ∈ c.emits e) : Broadcasts c.plan c e bindings := by
  have hround := configures_drawPorts c.plan.parameters c.ports
  have hmem : bindings ∈ (c.emits e).filterMap (·.bindings?) :=
    List.mem_filterMap.mpr ⟨_, h, rfl⟩
  have hsets := c.sets_emits e
  generalize (c.emits e).filterMap (·.bindings?) = broadcasts at hsets hmem
  generalize (c.after e).ports = after at hsets
  cases hsets with
  | drawn hd hp =>
    obtain rfl := List.mem_singleton.mp hmem
    exact ⟨hround.1.names, hround.1.width, .inl ⟨hd, fun p b hpb port => hround.1.value_fixed hpb⟩⟩
  | neutral hd hp =>
    obtain rfl := List.mem_singleton.mp hmem
    have hvalue : ∀ b ∈ neutralPorts c.plan.parameters, b.value = .int16 0 := by
      intro b hb
      obtain ⟨p, -, rfl⟩ := List.mem_map.mp hb
      rfl
    refine ⟨?_, fun b hb => ?_, .inr ⟨hp, hvalue⟩⟩
    · rw [neutralPorts, List.map_map]
      rfl
    · rw [hvalue b hb]
      rfl
  | nothing hd hp => cases hmem

/-- The draws of the controller `c₀` that has been told `events`, with the broadcasts they are for. -/
structure Replays (c₀ : Controller G) (events : List Event) : Prop where
  broadcasts : ∀ front e back, events = front ++ e :: back → ∀ bindings,
    .broadcast bindings ∈ (c₀.afterAll front).emits e →
    Broadcasts c₀.plan (c₀.afterAll front) e bindings
  /-- The drawn values are the first ports of the allocator. -/
  drawn : c₀.drawn events = (c₀.ports.draws (c₀.drawn events).length).1.map .int16
  /-- No port was drawn for anything else. -/
  ports : (c₀.afterAll events).ports = (c₀.ports.draws (c₀.drawn events).length).2

theorem replays (c : Controller G) (events : List Event) : c.Replays events := by
  obtain ⟨n, hdrawn, hports⟩ := c.drawn_eq events
  have hlength : (c.drawn events).length = n := by
    rw [hdrawn, List.length_map, Port.Allocator.length_draws]
  refine ⟨fun front e back _ bindings hb => ?_, hlength ▸ hdrawn, hlength ▸ hports⟩
  rw [← c.plan_afterAll front]
  exact broadcasts_of_mem hb

end Controller

/-- An event that neither draws ports nor takes them away has nothing broadcast. -/
theorem Run.broadcasts_step {G σ ν ε : Type} [WordSource G] [Node ν] [Simulator σ ν ε] {r : Run G σ}
    {e : Event} (hd : r.controller.draws e = false) (hp : r.controller.parks e = false) :
    (r.step e).2.broadcasts = r.broadcasts := by
  cases hr : r.controller.handle e with
  | error cause => rw [step_of_refused hr]
  | ok reaction =>
    have hnone := bindings_emits_eq_nil hd hp
    rw [emits_of_handle hr] at hnone
    rw [step_of_handle hr]
    exact broadcasts_performAll hnone _

/-- Every history of a controller replays the draws of its allocator. So histories under two plans
draw the same ports as far as both draw, and so do two runs from one seed, whatever else is
different about them. -/
theorem replay {G σ τ ν ξ ε η : Type} [WordSource G] [Node ν] [Simulator σ ν ε] [Node ξ]
    [Simulator τ ξ η] (plan plan' : Plan) :
    (∀ (ports : Port.Allocator G) events, Replays { plan, ports } events) ∧
    (∀ (ports : Port.Allocator G) events events',
      let c : Controller G := { plan, ports }
      let c' : Controller G := { plan := plan', ports }
      c.drawn events <+: c'.drawn events' ∨ c'.drawn events' <+: c.drawn events) ∧
    ∀ (sim : σ) (sim' : τ), Simulator.seed sim = Simulator.seed sim' → ∀ limit limit' report report',
      (plan.run sim { limit } : Outcome σ ε).result = .ok report →
      (plan'.run sim' { limit := limit' } : Outcome τ η).result = .ok report' →
      ∃ events events',
        let c := Controller.ofSeed plan (Simulator.seed sim)
        let c' := Controller.ofSeed plan' (Simulator.seed sim')
        report.Recounts c events ∧ report'.Recounts c' events' ∧
          (c.drawn events <+: c'.drawn events' ∨ c'.drawn events' <+: c.drawn events) := by
  refine ⟨fun ports events => replays _ events,
    fun ports events events' => drawn_comparable { plan, ports } { plan := plan', ports } rfl _ _, ?_⟩
  intro sim sim' hseed limit limit' report report' h h'
  obtain ⟨pulled, -, -, hrecounts⟩ := Controller.recounts_run
    (c := .ofSeed plan (Simulator.seed sim)) rfl h
  obtain ⟨pulled', -, -, hrecounts'⟩ := Controller.recounts_run
    (c := .ofSeed plan' (Simulator.seed sim')) rfl h'
  have hports : (Controller.ofSeed plan (Simulator.seed sim)).ports =
      (Controller.ofSeed plan' (Simulator.seed sim')).ports := by rw [hseed]; rfl
  exact ⟨_, _, hrecounts, hrecounts', drawn_comparable _ _ hports _ _⟩

end MoteBench
