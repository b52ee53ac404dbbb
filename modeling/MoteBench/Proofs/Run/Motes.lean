import Mathlib.Data.List.Forall2
import MoteBench.Proofs.Controller.Replay
import MoteBench.Proofs.Memory.Assignment
import MoteBench.Proofs.Run.Walk
import MoteBench.Proofs.World.Request

/-!
What a run does to the motes of a world. Its report tells all of it: the motes in the end are those
in the beginning after the broadcasts on record.
-/
namespace MoteBench

open MoteBench.Random Memory Controller

/-- Nodes after the broadcasts on record. -/
def rebroadcast {ν : Type} [Node ν] (mode : AccessMode) (records : List BroadcastRecord)
    (nodes : List ν) : List ν :=
  records.foldl (fun nodes record => (broadcastAll mode record.bindings nodes).1) nodes

theorem rebroadcast_eq_map {ν : Type} [Node ν] (mode : AccessMode) (records : List BroadcastRecord)
    (nodes : List ν) : rebroadcast mode records nodes =
      nodes.map (assign mode (records.flatMap (·.bindings))) := by
  rw [List.flatMap_def, ← foldl_broadcastAll, List.foldl_map]
  rfl

namespace World

theorem made_withMotes (seed : UInt64) (count : Nat) :
    ∀ mote ∈ (withMotes seed count).motes, mote.Made := by
  intro mote hm
  obtain ⟨i, -, rfl⟩ := List.mem_map.mp hm
  exact Mote.made_firmware _

/-- No request spoils the memory of a mote. -/
theorem made_serve {w : World} (h : ∀ mote ∈ w.motes, mote.Made) (q : Request)
    (hq : ∀ mote, q = .addMote mote → mote.Made) : ∀ mote ∈ (w.serve q).2.motes, mote.Made := by
  have hschedule (m : Message) : ∀ mote ∈ (w.respond (w.schedule m)).2.motes, mote.Made := by
    rcases w.respond_schedule m with heq | heq <;> rw [heq] <;> exact h
  cases q with
  | addMote mote =>
    rw [World.serve]
    rcases w.respond_addMote mote with heq | heq <;> rw [heq]
    · exact h
    · intro other hother
      rcases List.mem_append.mp hother with hother | hother
      · exact h other hother
      · obtain rfl := List.mem_singleton.mp hother
        exact hq other rfl
  | schedule m => exact hschedule m
  | print time id text => exact hschedule ⟨time, .mote id, text⟩
  | armTimeout after =>
    rw [World.serve]
    rcases w.respond_armTimeout after with heq | heq <;> rw [heq] <;> exact h
  | generate delay payload => exact h
  | next =>
    change ∀ mote ∈ w.next.2.motes, mote.Made
    rw [motes_next]
    exact h
  | broadcast mode bindings =>
    change ∀ mote ∈ (broadcastAll mode bindings w.motes).1, mote.Made
    rw [nodes_broadcastAll_eq_map]
    intro mote hm
    obtain ⟨before, hbefore, rfl⟩ := List.mem_map.mp hm
    exact (h before hbefore).assign mode bindings

end World

namespace Run

variable {G : Type}

/-- The motes were `motes` in the beginning, and the broadcasts on record are all they got. -/
structure Accounts (r : Run G World) (plan : Plan) (motes : List Mote) : Prop where
  plan_eq : r.controller.plan = plan
  motes_eq : r.sim.motes = rebroadcast plan.access r.broadcasts.toList motes

variable {r : Run G World} {plan : Plan} {motes : List Mote}

theorem Accounts.perform (h : r.Accounts plan motes) (a : Action) :
    (r.perform a).2.Accounts plan motes := by
  cases a with
  | armTimeout after =>
    refine ⟨h.plan_eq, Eq.trans ?_ h.motes_eq⟩
    simp only [Run.perform, Simulator.armTimeout]
    cases ha : r.sim.armTimeout after with
    | error cause => rfl
    | ok w =>
      obtain rfl := World.armTimeout_eq_ok ha
      rfl
  | broadcast bindings =>
    refine ⟨h.plan_eq, ?_⟩
    have hnodes : (r.perform (.broadcast bindings)).2.sim.motes =
        (broadcastAll r.controller.plan.access bindings r.sim.motes).1 := rfl
    rw [hnodes, h.motes_eq, h.plan_eq]
    simp [Run.perform, rebroadcast]
  | log severity line => exact ⟨h.plan_eq, h.motes_eq⟩
  | generate delay payload => exact ⟨h.plan_eq, h.motes_eq⟩
  | finish v => exact ⟨h.plan_eq, h.motes_eq⟩

variable [WordSource G]

theorem Accounts.step (h : r.Accounts plan motes) (e : Event) :
    (r.step e).2.Accounts plan motes := by
  cases hr : r.controller.handle e with
  | error cause =>
    rw [step_of_refused hr]
    exact h
  | ok reaction =>
    have hplan := plan_after r.controller e
    rw [after_of_handle hr, h.plan_eq] at hplan
    rw [step_of_handle hr]
    exact performAll_induction (P := (·.Accounts plan motes)) (fun a _ s hs => hs.perform a)
      (r := r.adopt reaction) ⟨hplan, h.motes_eq⟩

omit [WordSource G] in
theorem Accounts.waited (h : r.Accounts plan motes) (hs : r.controller.stage = .running)
    {c : Cursor} {d : Delivery} (hd : (r.await c).outcome = .ok d) :
    (r.waited c).Accounts plan motes := by
  have hnext {w w' : World} {d? : Option Delivery} (hn : Simulator.next w = (d?, w')) :
      w'.motes = w.motes := by
    rw [← w.motes_next]
    exact congrArg (fun p : Option Delivery × World => p.2.motes) hn.symm
  obtain ⟨w, hw, hn, -⟩ := exists_next_of_await (P := fun w : World => w.motes = r.sim.motes) hs
    (fun w m w' hw hn _ => (hnext hn).trans hw) rfl hd
  exact ⟨h.plan_eq, ((hnext hn).trans hw).trans h.motes_eq⟩

/-- At every point of a run its records account for the motes. -/
theorem Passes.accounts {s : Run G World} {c c' : Cursor} (h : r.Passes c s c')
    (hs : r.controller.stage = .running) (hr : r.Accounts plan motes) :
    s.controller.stage = .running ∧ s.Accounts plan motes := by
  refine h.invariant (P := fun s => s.controller.stage = .running ∧ s.Accounts plan motes) ?_
    ⟨hs, hr⟩
  rintro s c d ⟨hs, haccounts⟩ hd hnone
  exact ⟨stage_step (r := s.waited c) hs hnone, (haccounts.waited hs hd).step d.toEvent⟩

end Run

/-- All that a run leaves on record accounts for the motes. -/
theorem Controller.accounts_run {G : Type} [WordSource G] {c : Controller G} (hs : c.stage = .armed)
    {w : World} {cursor : Cursor} {report : Report}
    (h : (c.run w cursor : Outcome World World.Refusal).result = .ok report) :
    (c.run w cursor : Outcome World World.Refusal).sim.motes =
      rebroadcast c.plan.access report.broadcasts w.motes := by
  obtain ⟨-, heq⟩ := run_eq_ok hs h
  have hfresh : ({ controller := c, sim := w } : Run G World).Accounts c.plan w.motes := ⟨rfl, rfl⟩
  rw [heq] at h ⊢
  obtain ⟨s, c', d, hpasses, hreports, hsim⟩ := Run.proceed_eq_ok h
  obtain ⟨hrunning, haccounts⟩ :=
    hpasses.accounts (Run.stage_step_start hs w.now) (hfresh.step (.start w.now))
  have hlast := ((haccounts.waited hrunning hreports.waited).step d.toEvent).motes_eq
  have hbroadcasts := congrArg Report.broadcasts (Except.ok.inj hreports.result)
  rw [hsim, hlast]
  exact congrArg (rebroadcast c.plan.access · w.motes) hbroadcasts

/-- Every broadcast on record binds the variables of the plan, in its order. -/
theorem Controller.bindings_run {G σ ν ε : Type} [WordSource G] [Node ν] [Simulator σ ν ε]
    {c : Controller G} (hs : c.stage = .armed) {sim : σ} {cursor : Cursor} {report : Report}
    (h : (c.run sim cursor : Outcome σ ε).result = .ok report) :
    ∀ record ∈ report.broadcasts,
      record.bindings.map (·.name) = c.plan.parameters.map (·.variableName) ∧
        ∀ b ∈ record.bindings, b.value.width = .int16 := by
  intro record hrecord
  obtain ⟨pulled, -, -, hrecounts⟩ := recounts_run hs h
  have hmem : record.bindings ∈ (c.emitted _).filterMap (·.bindings?) :=
    hrecounts.broadcasts ▸ List.mem_map_of_mem hrecord
  obtain ⟨a, ha, hbindings⟩ := List.mem_filterMap.mp hmem
  obtain ⟨front, e, hemits⟩ := exists_mem_emits ha
  have hbroadcast : a = .broadcast record.bindings := by
    cases a <;> simp_all [Action.bindings?]
  have hof := broadcasts_of_mem (hbroadcast ▸ hemits)
  rw [plan_afterAll] at hof
  exact ⟨hof.names, hof.width⟩

/-- The mote `after` reads as the mote `before`, but for the variables among `names` that are two
bytes wide: these have the last values that `bindings` give them. -/
structure Mote.Reassigned (names : List String) (bindings : List Binding) (before after : Mote) :
    Prop where
  set : ∀ name ∈ names, ∀ symbol, before.ram.symbol? name = some symbol →
    symbol.size = Width.int16.bytes →
      ∃ b, (bindings.filter (·.name = name)).getLast? = some b ∧
        Memory.read after name .int16 = .ok b.value
  kept : ∀ name symbol, before.ram.symbol? name = some symbol →
    (name ∈ names → symbol.size ≠ Width.int16.bytes) → ∃ width v, symbol.size = width.bytes ∧
      Memory.read before name width = .ok v ∧ Memory.read after name width = .ok v

/-- Rounds of bindings for the same variables leave no trace but that of the last one. -/
theorem Mote.reassigned_assign {mote : Mote} (h : mote.Made) (mode : AccessMode) {names : List String}
    {front : List Binding} {last : List Binding} (hnames : last.map (·.name) = names)
    (hbound : ∀ b ∈ front ++ last, b.name ∈ names ∧ b.value.width = .int16) :
    Reassigned names last mote (assign mode (front ++ last) mote) where
  set name hname symbol hs hw := by
    have hfiltered : last.filter (·.name = name) ≠ [] := by
      rw [← hnames] at hname
      obtain ⟨b, hb, rfl⟩ := List.mem_map.mp hname
      exact List.ne_nil_of_mem (List.mem_filter.mpr ⟨hb, by simp⟩)
    have hlast := List.getLast?_eq_some_getLast hfiltered
    refine ⟨_, hlast, Mote.read_assign mode h.laidOut hs hw (fun b hb => (hbound b hb).2) ?_⟩
    rw [List.filter_append, List.getLast?_append, hlast]
    rfl
  kept name symbol hs hother := by
    obtain ⟨width, hw⟩ := h.exists_width _ (Ram.mem_of_symbol? hs)
    obtain ⟨v, hv⟩ := Mote.exists_read h.laidOut hs hw
    refine ⟨width, v, hw, hv, (Mote.read_assign_other mode h.laidOut ?_).trans hv⟩
    intro b hb hname hwidth symbol' hs' hw'
    obtain rfl := Option.some.inj (hs.symm.trans hs')
    have hnarrow := hother (hname ▸ (hbound b hb).1)
    rw [(hbound b hb).2] at hwidth
    exact hnarrow (hwidth ▸ hw')

/-- The report of a run accounts for all memory. The motes in the end are the motes in the beginning
after the broadcasts on record. So a variable of the plan has the value of its last binding in the
last broadcast wherever it is two bytes wide, and all others have the values they had. -/
theorem motes_accounted_for {G : Type} [WordSource G] (plan : Plan) (ports : Port.Allocator G)
    (w : World) (limit : Nat) :
    let c : Controller G := { plan, ports }
    let outcome : Outcome World World.Refusal := c.run w { limit }
    ∀ report, outcome.result = .ok report →
      outcome.sim.motes = rebroadcast plan.access report.broadcasts w.motes ∧
      List.Forall₂ Mote.Same w.motes outcome.sim.motes ∧
      ((∀ mote ∈ w.motes, mote.Made) → ∀ last, report.broadcasts.getLast? = some last →
        List.Forall₂ (Mote.Reassigned (plan.parameters.map (·.variableName)) last.bindings)
          w.motes outcome.sim.motes) := by
  intro c outcome report h
  have hmotes := Controller.accounts_run (c := c) rfl h
  have hbindings := Controller.bindings_run (c := c) rfl h
  refine ⟨hmotes, ?_, fun hmade last hlast => ?_⟩
  · rw [hmotes, rebroadcast_eq_map, List.forall₂_map_right_iff, List.forall₂_same]
    exact fun mote _ => Mote.same_assign _ _ mote
  · obtain ⟨records, hrecords⟩ := List.getLast?_eq_some_iff.mp hlast
    have hflat : report.broadcasts.flatMap (·.bindings) =
        records.flatMap (·.bindings) ++ last.bindings := by
      rw [hrecords, List.flatMap_append, List.flatMap_singleton]
    rw [hmotes, rebroadcast_eq_map, List.forall₂_map_right_iff, List.forall₂_same, hflat]
    intro mote hm
    have hnames := (hbindings last (by simp [hrecords])).1
    refine Mote.reassigned_assign (hmade mote hm) _ hnames fun b hb => ?_
    obtain ⟨record, hrecord, hb⟩ := List.mem_flatMap.mp (hflat ▸ hb)
    obtain ⟨hnames, hwidth⟩ := hbindings record hrecord
    exact ⟨hnames ▸ List.mem_map_of_mem hb, hwidth b hb⟩

/-- A variable that is bound twice, on a mote that has two bytes for it and on one that has not. -/
theorem motes_accounted_for_bound_twice :
    let plan : Plan :=
      { passMarker := some "done"
        parameters := [⟨"tcp_test_port", .fixed 1883⟩, ⟨"tcp_test_port", .fixed 80⟩] }
    let narrow : Mote := Mote.withVariable { id := 9 } "tcp_test_port" .bool8
    let w := (((World.withMotes 7 1).serve (.addMote narrow)).2.serve (.print .zero 9 "done")).2
    let outcome : Outcome World World.Refusal := plan.run w { limit := 1 }
    (∀ mote ∈ w.motes, mote.Made) ∧ (∃ report, outcome.result = .ok report) ∧
      List.Forall₂ (Mote.Reassigned ["tcp_test_port", "tcp_test_port"]
        [⟨"tcp_test_port", .int16 1883⟩, ⟨"tcp_test_port", .int16 80⟩]) w.motes
        outcome.sim.motes := by
  intro plan narrow w outcome
  have hmade : ∀ mote ∈ w.motes, mote.Made :=
    World.made_serve (World.made_serve (World.made_withMotes 7 1) _
      fun mote hmote => World.Request.addMote.inj hmote ▸ (Mote.Made.empty 9).define _ _) _ nofun
  have hbroadcasts : outcome.result.toOption.map (·.broadcasts) = some [⟨.zero,
      [⟨"tcp_test_port", .int16 1883⟩, ⟨"tcp_test_port", .int16 80⟩]⟩] := by decide +kernel
  cases h : outcome.result with
  | error cause =>
    rw [h] at hbroadcasts
    cases hbroadcasts
  | ok report =>
    have hrecords := Option.some.inj ((congrArg (·.toOption.map (·.broadcasts)) h).symm.trans
      hbroadcasts)
    obtain ⟨-, -, hmotes⟩ := motes_accounted_for plan (.ofSeed w.seed) w 1 report h
    exact ⟨hmade, ⟨report, rfl⟩, hmotes hmade _ (congrArg List.getLast? hrecords)⟩

end MoteBench
