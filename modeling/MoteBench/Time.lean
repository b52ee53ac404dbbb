/-! Simulated time: instants on a clock that stops at its last tick, and the spans between them. -/
namespace MoteBench

/-- A length of time in nanoseconds. -/
structure Span where
  nanos : Nat
  deriving DecidableEq, Repr

namespace Span

def ofMicros (n : Nat) : Span := ⟨n * 1000⟩

def ofMillis (n : Nat) : Span := ⟨n * 1000000⟩

/-- Whole microseconds; what is left of a span after them is dropped. -/
def micros (d : Span) : Nat := d.nanos / 1000

def millis (d : Span) : Nat := d.nanos / 1000000

@[simp] theorem micros_ofMicros (n : Nat) : (ofMicros n).micros = n := by
  simp [micros, ofMicros]

@[simp] theorem millis_ofMillis (n : Nat) : (ofMillis n).millis = n := by
  simp [millis, ofMillis]

@[simp] theorem micros_ofMillis (n : Nat) : (ofMillis n).micros = n * 1000 := by
  simp only [micros, ofMillis]
  omega

end Span

/-- A point of simulated time, in microseconds since the simulation began. -/
structure Instant where
  micros : Nat
  micros_lt : micros < UInt64.size
  deriving DecidableEq

namespace Instant

instance : Repr Instant := ⟨fun t _ => repr t.micros⟩

/-- The instant `n` microseconds in, or the last one if the clock does not reach that far. -/
def ofMicros (n : Nat) : Instant :=
  ⟨min n (UInt64.size - 1), Nat.lt_of_le_pred (by decide) (Nat.min_le_right ..)⟩

def ofMillis (n : Nat) : Instant := ofMicros (n * 1000)

def zero : Instant := ofMicros 0

def last : Instant := ofMicros (UInt64.size - 1)

instance : Inhabited Instant := ⟨zero⟩

@[ext] theorem ext {a b : Instant} (h : a.micros = b.micros) : a = b := by
  cases a
  cases b
  simp_all

theorem micros_ofMicros (n : Nat) : (ofMicros n).micros = min n (UInt64.size - 1) := rfl

theorem micros_ofMicros_of_lt {n : Nat} (h : n < UInt64.size) : (ofMicros n).micros = n := by
  rw [micros_ofMicros]
  omega

@[simp] theorem ofMicros_micros (t : Instant) : ofMicros t.micros = t :=
  ext (micros_ofMicros_of_lt t.micros_lt)

def millis (t : Instant) : Nat := t.micros / 1000

instance : LE Instant := ⟨fun a b => a.micros ≤ b.micros⟩

instance : LT Instant := ⟨fun a b => a.micros < b.micros⟩

instance (a b : Instant) : Decidable (a ≤ b) := inferInstanceAs (Decidable (a.micros ≤ b.micros))

instance (a b : Instant) : Decidable (a < b) := inferInstanceAs (Decidable (a.micros < b.micros))

instance : Max Instant := maxOfLe

theorem le_iff {a b : Instant} : a ≤ b ↔ a.micros ≤ b.micros := Iff.rfl

theorem lt_iff {a b : Instant} : a < b ↔ a.micros < b.micros := Iff.rfl

theorem micros_max (a b : Instant) : (max a b).micros = max a.micros b.micros := by
  show (if a ≤ b then b else a).micros = max a.micros b.micros
  split
  · exact (Nat.max_eq_right (le_iff.1 ‹a ≤ b›)).symm
  · exact (Nat.max_eq_left (Nat.le_of_not_le ‹¬ a ≤ b›)).symm

instance : HAdd Instant Span Instant := ⟨fun t d => ofMicros (t.micros + d.micros)⟩

theorem micros_add (t : Instant) (d : Span) :
    (t + d).micros = min (t.micros + d.micros) (UInt64.size - 1) := rfl

theorem le_add (t : Instant) (d : Span) : t ≤ t + d := by
  have := t.micros_lt
  rw [le_iff, micros_add]
  omega

/-- The time from `b` to `a`, none if `a` comes first. -/
instance : HSub Instant Instant Span := ⟨fun a b => .ofMicros (a.micros - b.micros)⟩

theorem micros_sub (a b : Instant) : (a - b).micros = a.micros - b.micros :=
  Span.micros_ofMicros _

/-- Microseconds in decimal. -/
def render (t : Instant) : String := toString t.micros

/-- Seconds as a double, for display only. -/
def seconds (t : Instant) : Float := t.micros.toUInt64.toFloat / 1000000

end Instant

end MoteBench
