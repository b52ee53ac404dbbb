import MoteBench.Text.Letter
import MoteBench.Text.Pattern.Escape

/-! What stands behind an opening parenthesis: flags, or the name of a group. -/
namespace MoteBench.Text.Pattern

/-- Reads flags up to their colon or parenthesis, which is left. No flag may come twice, and a minus
has to have flags behind it. -/
def readFlags? (f : Flags) (negated : Bool) (dangling : Bool) (seen : List Char) :
    List Char → Option (Flags × List Char)
  | [] => none
  | c :: cs =>
    if c = ':' ∨ c = ')' then if dangling then none else some (f, c :: cs)
    else if c = '-' then if negated then none else readFlags? f true true seen cs
    else if c ∈ seen ∨ c ∉ ['i', 'm', 's', 'U', 'u', 'R', 'x'] then none
    else
      let f := if c = 'i' then { f with ignoreCase := !negated }
        else if c = 'u' then { f with unicode := !negated }
        else if c = 'x' then { f with spaced := !negated }
        else f
      readFlags? f negated false (c :: seen) cs

def isNameChar (first : Bool) (c : Char) : Bool :=
  if first then c = '_' || isLetter c
  else c = '_' || c = '.' || c = '[' || c = ']' || isAlphanumeric c

/-- Reads the name of a group from behind its angle bracket. -/
def readName? (cs : List Char) : Option (List Char × List Char) :=
  let (name, rest) := cs.span (· ≠ '>')
  match name, rest with
  | c :: more, _ :: rest =>
    if isNameChar true c && more.all (isNameChar false) then some (name, rest) else none
  | _, _ => none

/-- What an opening parenthesis begins. -/
inductive Opening where
  | group (name : Option (List Char)) (inside : Flags)
  /-- Flags for the rest of the group around. -/
  | setting (flags : Flags)
  deriving DecidableEq, Repr

/-- Reads on behind an opening parenthesis. Looking around is not in the dialect. -/
def readOpening? (f : Flags) (cs : List Char) : Option (Opening × List Char) :=
  let named (cs : List Char) := (readName? cs).map fun r => (.group (some r.1) f, r.2)
  match f.skip cs with
  | '?' :: 'P' :: '<' :: rest => named rest
  | '?' :: '<' :: rest => named rest
  | '?' :: rest =>
    match readFlags? f false false [] rest with
    | some (flags, ')' :: after) =>
      if rest.head? = some ')' then none else some (.setting flags, after)
    | some (inside, _ :: after) => some (.group none inside, after)
    | _ => none
  | cs => some (.group none f, cs)

end MoteBench.Text.Pattern
