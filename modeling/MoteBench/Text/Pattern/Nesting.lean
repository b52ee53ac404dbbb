/-!
How deep a pattern is nested. Plain characters and assertions are flat. A group, a set and a
repetition are one level above what they hold, and so is whatever joins several items.
-/
namespace MoteBench.Text.Pattern

/-- Items in a row: their number, and the depth of the deepest. -/
structure Row where
  length : Nat := 0
  depth : Nat := 0
  deriving DecidableEq, Repr

namespace Row

def push (r : Row) (depth : Nat) : Row := ⟨r.length + 1, max r.depth depth⟩

/-- Puts something deeper in the place of the last item. -/
def deepen (r : Row) (depth : Nat) : Row := { r with depth := max r.depth depth }

/-- A single item stands for itself. -/
def nesting (r : Row) : Nat := if r.length ≤ 1 then r.depth else r.depth + 1

end Row

/-- A row, with the depth of what an operator in front of it joins it to. -/
structure Operand where
  before : Option Nat := none
  row : Row := {}
  deriving DecidableEq, Repr

namespace Operand

def push (o : Operand) (depth : Nat) : Operand := { o with row := o.row.push depth }

def nesting (o : Operand) : Nat :=
  match o.before with
  | none => o.row.nesting
  | some depth => max depth o.row.nesting + 1

/-- What follows an operator that takes two operands, the left of which may be such a pair itself. -/
def afterPair (o : Operand) : Operand := { before := some o.nesting }

/-- What follows a bar. All alternatives are joined at one level. -/
def afterBar (o : Operand) : Operand := { before := some (max (o.before.getD 0) o.row.nesting) }

end Operand

/-- Patterns nested deeper than this are refused. -/
def maxNesting : Nat := 250

end MoteBench.Text.Pattern
