import MoteBench.Text.Pattern.Group
import MoteBench.Text.Pattern.Set

/-!
Well-formed regular expressions. They are only checked, never matched. The dialect knows groups
with names or flags, sets with ranges, nested sets and set operators, and escapes; it has no
tables of Unicode, so that case folding and named classes need the flag `-u`, under which a pattern
may match nothing beyond ASCII. No closing brace can come in a pattern, so every construct that
needs one is refused.
-/
namespace MoteBench.Text.Pattern

/-- Where the reading of a pattern stands. -/
structure Position where
  flags : Flags := {}
  operand : Operand := {}
  /-- What to go back to at the end of each open group. -/
  around : List (Flags × Operand) := []
  names : List (List Char) := []
  /-- The depth of the last item, if it can be repeated. -/
  last : Option Nat := none
  deriving DecidableEq, Repr

namespace Position

def push (p : Position) (depth : Nat) : Position :=
  { p with operand := p.operand.push depth, last := some depth }

/-- Flags for the rest of the group count as an item. -/
def setFlags (p : Position) (flags : Flags) : Position :=
  { p.push 0 with flags, last := none }

def openGroup (p : Position) (name : Option (List Char)) (inside : Flags) : Position :=
  { flags := inside, around := (p.flags, p.operand) :: p.around, names := name.toList ++ p.names }

def closeGroup? (p : Position) : Option Position :=
  match p.around with
  | [] => none
  | (flags, operand) :: around =>
    some ({ p with flags, operand, around }.push (p.operand.nesting + 1))

def nextAlternative (p : Position) : Position :=
  { p with operand := p.operand.afterBar, last := none }

def repeatLast? (p : Position) : Option Position :=
  p.last.map fun depth =>
    { p with
      operand := { p.operand with row := p.operand.row.deepen (depth + 1) }
      last := some (depth + 1) }

/-- Takes in one construct. -/
def advance? (p : Position) : List Char → Option (Position × List Char)
  | [] => none
  | '(' :: cs =>
    match readOpening? p.flags cs with
    | none => none
    | some (.setting flags, rest) => some (p.setFlags flags, rest)
    | some (.group name inside, rest) =>
      if name.any (p.names.contains ·) then none else some (p.openGroup name inside, rest)
  | ')' :: cs => p.closeGroup?.map (·, cs)
  | '|' :: cs => some (p.nextAlternative, cs)
  | '[' :: cs => (readSet? p.flags cs).map fun r => (p.push r.1, r.2)
  | '{' :: _ => none
  | '\\' :: cs =>
    match readEscape? p.flags cs with
    | none => none
    | some (.char _, rest) => if p.flags.foldable then some (p.push 0, rest) else none
    | some (_, rest) => some (p.push 0, rest)
  | '.' :: cs => if p.flags.unicode then some (p.push 0, cs) else none
  | '^' :: cs => some (p.push 0, cs)
  | '$' :: cs => some (p.push 0, cs)
  | c :: cs =>
    if c ∈ ['?', '*', '+'] then
      p.repeatLast?.map (·, if cs.head? = some '?' then cs.tail else cs)
    else if p.flags.foldable then some (p.push 0, cs)
    else none

/-- Takes in constructs until none is left; then no group may be open. -/
def accepts (p : Position) : (fuel : Nat) → List Char → Bool
  | 0, _ => false
  | fuel + 1, cs =>
    match p.flags.skip cs with
    | [] => p.around.isEmpty && p.operand.nesting ≤ maxNesting
    | cs =>
      match p.advance? cs with
      | none => false
      | some (p, rest) => p.accepts fuel rest

end Position

def isWellFormed (cs : List Char) : Bool := Position.accepts {} (cs.length + 1) cs

example : ["a|b*?", "(?P<x>[^]a-f[:digit:]])", "(?-u:\\w)+", "]", "", "[a-]", "\\.x", "(?i)[^&&]",
    "(?x)[a-#]\n]"].all (isWellFormed ·.toList) = true := by decide +kernel

example : ["(", ")", "*", "a\x7b2", "[z-a]", "(?i)a", "\\d", "\\", "(?)", "[[]", "(?=x)",
    "(?i)[a&&]"].any (isWellFormed ·.toList) = false := by decide +kernel

example : isWellFormed ('a' :: .replicate 250 '*') = true ∧
    isWellFormed ('a' :: .replicate 251 '*') = false := by decide +kernel

end MoteBench.Text.Pattern
