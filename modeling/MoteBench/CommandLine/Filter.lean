import MoteBench.CommandLine.Directive
import MoteBench.Trace

/-!
Log filters. A filter is a list of directives between commas. One that cannot be read is passed over,
unless it breaks a character, and a filter without directives lets errors through. Of the rules that are for an entry the closest
decides: the one with the longest target, then one that names a field, and the later of two names in
alphabetical order. Of equal ones the last decides.
-/
namespace MoteBench.CommandLine

namespace Rule

def isFor (r : Rule) (e : Entry) : Bool :=
  r.target.all (fun t => t.toList.isPrefixOf e.channel.path.toList) &&
    r.field.all (e.fieldNames.contains ·)

/-- A rule without a target reaches farther than one with an empty target. -/
def targetLength (r : Rule) : Nat := r.target.elim 0 (·.length + 1)

/-- Whether, of two rules for one entry, the first is at least as close to it. -/
def isAsClose (r s : Rule) : Bool :=
  s.targetLength < r.targetLength || (s.targetLength = r.targetLength &&
    match s.field, r.field with
    | none, _ => true
    | some _, none => false
    | some f, some g => !decide (g < f))

end Rule

abbrev Filter := List Rule

namespace Filter

def ofDirectives : List Directive → Filter
  | [] => [{ limit := 1 }]
  | directives => directives.filterMap fun
    | .rule r => some r
    | .inSpan => none

/-- Yields nothing if a directive breaks a character. -/
def parse? (s : String) : Option Filter := do
  let readings ← (s.toList.splitOn ',').mapM fun written =>
    match Directive.parse written with
    | .ok directive => some [directive]
    | .error .unreadable => some []
    | .error .brokenCharacter => none
  return .ofDirectives readings.flatten

example : parse? "info,bench[\x7bnode\x7d]=warn" =
      some [{ limit := 3 }, { target := some "bench", field := some "node", limit := 2 }] ∧
    parse? "?,[span]" = some [] ∧ parse? "?" = some [{ limit := 1 }] ∧
    parse? "\u3000[span]" = none := by decide +kernel

/-- The rule that decides on an entry. -/
def closest? (f : Filter) (e : Entry) : Option Rule :=
  (f.filter (·.isFor e)).foldl
    (fun best r => if best.all r.isAsClose then some r else best) none

def admits (f : Filter) (e : Entry) : Bool :=
  f.any (e.level.rank < ·.limit) && (f.closest? e).any (e.level.rank < ·.limit)

end Filter

end MoteBench.CommandLine
