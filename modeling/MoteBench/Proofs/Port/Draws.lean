import MoteBench.Controller

/-!
Ports drawn one after the other. A round of draws for the parameters of a plan takes one port for
each parameter that is drawn, and no more.
-/
namespace MoteBench

open MoteBench.Random Memory

namespace Port.Allocator

variable {G : Type} [WordSource G]

/-- The first `n` ports that an allocator gives, and the allocator after them. -/
def draws (a : Allocator G) : Nat → List Port × Allocator G
  | 0 => ([], a)
  | n + 1 =>
    let (port, a, _) := allocate a ""
    let (ports, a) := a.draws n
    (port :: ports, a)

@[simp] theorem draws_zero (a : Allocator G) : a.draws 0 = ([], a) := rfl

/-- What a port is announced under has no influence on it. -/
theorem draws_succ (a : Allocator G) (n : Nat) (role : String) :
    a.draws (n + 1) = ((allocate a role).1 :: ((allocate a role).2.1.draws n).1,
      ((allocate a role).2.1.draws n).2) := rfl

@[simp] theorem length_draws (a : Allocator G) (n : Nat) : (a.draws n).1.length = n := by
  induction n generalizing a with
  | zero => rfl
  | succ n ih => rw [draws_succ a n "", List.length_cons, ih]

theorem draws_add (a : Allocator G) (m n : Nat) :
    a.draws (m + n) = ((a.draws m).1 ++ ((a.draws m).2.draws n).1, ((a.draws m).2.draws n).2) := by
  induction m generalizing a with
  | zero => simp
  | succ m ih =>
    rw [Nat.succ_add, draws_succ a (m + n) "", draws_succ a m "", ih]
    rfl

theorem draws_prefix (a : Allocator G) {m n : Nat} (h : m ≤ n) :
    (a.draws m).1 <+: (a.draws n).1 := by
  obtain ⟨k, rfl⟩ := Nat.exists_eq_add_of_le h
  rw [draws_add]
  exact List.prefix_append _ _

end Port.Allocator

def Parameter.isDrawn (p : Parameter) : Bool :=
  match p.choice with
  | .fixed _ => false
  | .drawn _ => true

/-- How many ports a round of draws takes. -/
def Plan.drawnCount (plan : Plan) : Nat := plan.parameters.countP (·.isDrawn)

/-- The values that bindings give to the drawn ones of the parameters. -/
def drawnValues (parameters : List Parameter) (bindings : List Binding) : List Value :=
  ((parameters.zip bindings).filter (·.1.isDrawn)).map (·.2.value)

/-- The bindings give each fixed parameter its own port and the others `ports`, in order. -/
inductive Configures : List Parameter → List Port → List Binding → Prop where
  | nil : Configures [] [] []
  | fixed {parameters : List Parameter} {ports : List Port} {bindings : List Binding}
      (name : String) (port : Port) (h : Configures parameters ports bindings) :
      Configures (⟨name, .fixed port⟩ :: parameters) ports (⟨name, .int16 port⟩ :: bindings)
  | drawn {parameters : List Parameter} {ports : List Port} {bindings : List Binding}
      (name role : String) (port : Port) (h : Configures parameters ports bindings) :
      Configures (⟨name, .drawn role⟩ :: parameters) (port :: ports) (⟨name, .int16 port⟩ :: bindings)

namespace Configures

variable {parameters : List Parameter} {ports : List Port} {bindings : List Binding}

theorem names (h : Configures parameters ports bindings) :
    bindings.map (·.name) = parameters.map (·.variableName) := by
  induction h with
  | nil => rfl
  | fixed name port h ih => rw [List.map_cons, List.map_cons, ih]
  | drawn name role port h ih => rw [List.map_cons, List.map_cons, ih]

theorem width (h : Configures parameters ports bindings) : ∀ b ∈ bindings, b.value.width = .int16 := by
  induction h with
  | nil => simp
  | fixed name port h ih => exact List.forall_mem_cons.mpr ⟨rfl, ih⟩
  | drawn name role port h ih => exact List.forall_mem_cons.mpr ⟨rfl, ih⟩

theorem value_fixed (h : Configures parameters ports bindings) {p : Parameter} {b : Binding}
    (hpb : (p, b) ∈ parameters.zip bindings) {port : Port} (hp : p.choice = .fixed port) :
    b.value = .int16 port := by
  induction h with
  | nil => cases hpb
  | fixed name own h ih =>
    rcases List.mem_cons.mp hpb with heq | hpb
    · obtain ⟨rfl, rfl⟩ := Prod.mk.inj heq
      obtain rfl := PortChoice.fixed.inj hp
      rfl
    · exact ih hpb
  | drawn name role own h ih =>
    rcases List.mem_cons.mp hpb with heq | hpb
    · obtain ⟨rfl, rfl⟩ := Prod.mk.inj heq
      cases hp
    · exact ih hpb

theorem drawnValues_eq (h : Configures parameters ports bindings) :
    drawnValues parameters bindings = ports.map .int16 := by
  induction h with
  | nil => rfl
  | fixed name port h ih => exact ih
  | drawn name role port h ih => exact congrArg (Value.int16 port :: ·) ih

end Configures

variable {G : Type} [WordSource G]

theorem isEmpty_drawPorts (parameters : List Parameter) (a : Port.Allocator G) :
    (Controller.drawPorts parameters a).1.isEmpty = true ↔ parameters = [] := by
  cases parameters <;> simp [Controller.drawPorts]

/-- A round of draws goes on where the allocator stands, and takes as many ports as it needs. -/
theorem configures_drawPorts (parameters : List Parameter) (a : Port.Allocator G) :
    Configures parameters (a.draws (parameters.countP (·.isDrawn))).1
        (Controller.drawPorts parameters a).1 ∧
      (Controller.drawPorts parameters a).2.1 = (a.draws (parameters.countP (·.isDrawn))).2 := by
  induction parameters generalizing a with
  | nil => exact ⟨.nil, rfl⟩
  | cons p parameters ih =>
    obtain ⟨name, choice⟩ := p
    cases choice with
    | fixed port =>
      obtain ⟨hbindings, hafter⟩ := ih a
      rw [List.countP_cons_of_neg (by simp [Parameter.isDrawn])]
      exact ⟨.fixed name port hbindings, hafter⟩
    | drawn role =>
      obtain ⟨hbindings, hafter⟩ := ih (Port.allocate a role).2.1
      rw [List.countP_cons_of_pos (by simp [Parameter.isDrawn]), Port.Allocator.draws_succ a _ role]
      exact ⟨.drawn name role _ hbindings, hafter⟩

end MoteBench
