import MoteBench.Text.Pattern.Escape
import MoteBench.Text.Pattern.Nesting

/-!
Sets of characters, which hold characters, ranges, named classes and further sets, joined by
operators. Under `-u` they hold ASCII alone, so that none may be negated. Where case is folded
without tables they may hold sets and operators but no member.
-/
namespace MoteBench.Text.Pattern

def asciiClasses : List String :=
  ["alnum", "alpha", "ascii", "blank", "cntrl", "digit", "graph", "lower", "print", "punct",
    "space", "upper", "word", "xdigit"]

/-- Reads a class such as `[:alpha:]` from behind its bracket, and tells whether it is negated. -/
def readAsciiClass? (cs : List Char) : Option (Bool × List Char) :=
  match cs with
  | ':' :: cs =>
    let (negated, cs) := match cs with
      | '^' :: cs => (true, cs)
      | cs => (false, cs)
    let (name, rest) := cs.span (· ≠ ':')
    match rest with
    | ':' :: ']' :: rest => if String.ofList name ∈ asciiClasses then some (negated, rest) else none
    | _ => none
  | _ => none

/-- Takes in the dashes at the front of a set, which are plain. So is a bracket that comes first of
all. -/
def readFront (f : Flags) (o : Operand) : (fuel : Nat) → List Char → Operand × List Char
  | 0, cs => (o, cs)
  | fuel + 1, cs =>
    match f.skip cs with
    | '-' :: rest => readFront f (o.push 0) fuel rest
    | ']' :: rest => if o.row.length = 0 then (o.push 0, f.skip rest) else (o, ']' :: rest)
    | cs => (o, cs)

/-- Reads on behind the bracket that opens a set, up to its first member that needs care. -/
def openSet? (f : Flags) (cs : List Char) : Option (Operand × List Char) :=
  let inside := match f.skip cs with
    | '^' :: rest => if f.unicode then some rest else none
    | cs => some cs
  match inside with
  | none => none
  | some cs =>
    match readFront f {} cs.length cs with
    | (_, []) => none
    | (o, cs) => if o.row.length = 0 || f.foldable then some (o, cs) else none

/-- A member of a set. Under `-u` it has to be an ASCII character. -/
def readMember? (f : Flags) : List Char → Option (Atom × List Char)
  | [] => none
  | '\\' :: cs =>
    match readEscape? f cs with
    | some (.char c, rest) => if f.unicode || c.toNat < 128 then some (.char c, rest) else none
    | other => other
  | c :: cs => if f.unicode || c.toNat < 128 then some (.char c, cs) else none

/-- A member or a range of them. A dash before a bracket or another dash makes no range. -/
def readRange? (f : Flags) (cs : List Char) : Option (List Char) :=
  match readMember? f cs with
  | none => none
  | some (first, rest) =>
    match f.skip rest with
    | [] => none
    | '-' :: after =>
      if f.glance after = some ']' ∨ f.glance after = some '-' then
        if first = .assertion then none else some ('-' :: after)
      else
        match first, readMember? f (f.skip after) with
        | .char a, some (.char b, rest) => if a ≤ b then some rest else none
        | _, _ => none
    | rest => if first = .assertion then none else some rest

/-- Reads on to behind the bracket that closes the last of the open sets. -/
def closeSets? (f : Flags) : (fuel : Nat) → (around : List Operand) → Operand → List Char →
    Option (Nat × List Char)
  | 0, _, _, _ => none
  | fuel + 1, around, o, cs =>
    match f.skip cs with
    | [] => none
    | ']' :: rest =>
      match around with
      | [] => some (o.nesting + 1, rest)
      | outer :: around => closeSets? f fuel around (outer.push (o.nesting + 1)) rest
    | '[' :: rest =>
      match readAsciiClass? rest with
      | some (negated, rest) =>
        if f.foldable && (!negated || f.unicode) then closeSets? f fuel around (o.push 0) rest
        else none
      | none =>
        match openSet? f rest with
        | none => none
        | some (inner, rest) => closeSets? f fuel (o :: around) inner rest
    | '&' :: '&' :: rest => closeSets? f fuel around o.afterPair rest
    | '-' :: '-' :: rest => closeSets? f fuel around o.afterPair rest
    | '~' :: '~' :: rest => closeSets? f fuel around o.afterPair rest
    | cs =>
      if f.foldable then
        match readRange? f cs with
        | none => none
        | some rest => closeSets? f fuel around (o.push 0) rest
      else none

/-- Reads a whole set from behind its bracket. Yields its nesting with the rest. -/
def readSet? (f : Flags) (cs : List Char) : Option (Nat × List Char) :=
  match openSet? f cs with
  | none => none
  | some (o, rest) => closeSets? f cs.length [] o rest

end MoteBench.Text.Pattern
