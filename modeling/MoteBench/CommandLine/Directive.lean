import MoteBench.Text.Blank
import MoteBench.Text.Bytes
import MoteBench.Text.Letter
import MoteBench.Text.Numeral
import MoteBench.Text.Pattern

/-!
Directives of a log filter. With all its parts a directive reads `target[span{field=value}]=level`.
A level alone is for everything, and without a level all levels are let through.

The parts are found in the directive without the blanks around it, but they are cut out by their
byte offsets from the directive as it was written. So a blank in front moves every part.
-/
namespace MoteBench.CommandLine

/-- A limit for the entries of the channels whose path begins with the target, if they have the
field. It lets through the levels whose rank is below it. -/
structure Rule where
  target : Option String := none
  field : Option String := none
  limit : Nat
  deriving DecidableEq, Repr

inductive Directive where
  | rule (r : Rule)
  /-- For what is logged inside a span. The bench opens none. -/
  | inSpan
  deriving DecidableEq, Repr

/-- The limit of a directive that names no level. -/
def widestLimit : Nat := 5

def levelNames : List (String × Nat) :=
  [("off", 0), ("error", 1), ("warn", 2), ("info", 3), ("debug", 4), ("trace", 5)]

/-- A level by its number or, in whatever case, by its name. -/
def readLimit? (cs : List Char) : Option Nat :=
  match Text.readNumeral? (widestLimit + 1) cs with
  | some limit => some limit
  | none => levelNames.lookup (.ofList (cs.map Char.toLower))

/-- Why a directive yields nothing. -/
inductive Fault where
  | unreadable
  /-- A part begins or ends inside a character. -/
  | brokenCharacter
  deriving DecidableEq, Repr

namespace Directive

def canBegin (c : Char) : Bool := c ∈ ['-', ':', '_'] || Text.isAlphanumeric c

def cut (offset size : Nat) (written : List Char) : Except Fault (List Char) :=
  match Text.bytesAt? offset size written with
  | some part => .ok part
  | none => .error .brokenCharacter

/-- The limit for the text of a level. -/
def readLevel : List Char → Except Fault Nat
  | [] => .ok widestLimit
  | cs =>
    match readLimit? cs with
    | some limit => .ok limit
    | none => .error .unreadable

/-- The limit of a directive, given its offset and what is left there of the scanned text. -/
def readLimitAt (written : List Char) (offset : Nat) : (left : List Char) → Except Fault Nat
  | [] => .ok widestLimit
  | '=' :: _ =>
    match Text.dropBytes? (offset + 1) written with
    | some level => readLevel level
    | none => .error .brokenCharacter
  | _ => .error .unreadable

/-- The value of a field is a number or else a pattern. -/
def isFieldValue (cs : List Char) : Bool :=
  (match cs with
  | '+' :: number => Text.isDecimal number
  | _ => false)
    || Text.Pattern.isWellFormed cs

/-- Reads the name of a field, and whether a value is asked of it. -/
def readField (cs : List Char) : Except Fault (String × Bool) :=
  match cs.splitOn '=' with
  | [] | [[]] => .error .unreadable
  | [name] => .ok (.ofList name, false)
  | name :: value :: _ =>
    if isFieldValue value then .ok (.ofList name, true) else .error .unreadable

/-- Reads on behind the brace that opens the field. A value is asked of the span around an entry. -/
def readFromField (written : List Char) (target : Option String) (hasSpan : Bool) (offset : Nat)
    (cs : List Char) : Except Fault Directive := do
  let (inside, left) := cs.span (· ≠ '\x7d')
  match left with
  | [] => .error .unreadable
  | _ :: left =>
    let size := Text.byteSize inside
    let (field, hasValue) ← readField (← cut offset size written)
    match left with
    | ']' :: left =>
      let limit ← readLimitAt written (offset + size + 2) left
      return if hasSpan || hasValue then .inSpan else .rule { target, field, limit }
    | _ => .error .unreadable

/-- Reads on behind the bracket that opens the span. -/
def readFromSpan (written : List Char) (target : Option String) (offset : Nat) (cs : List Char) :
    Except Fault Directive := do
  let (inside, left) := cs.span fun c => c ≠ ']' && c ≠ '\x7b'
  match left with
  | [] => .error .unreadable
  | c :: left =>
    let size := Text.byteSize inside
    let span ← cut offset size written
    if c = ']' then
      let _ ← readLimitAt written (offset + size + 1) left
      return .inSpan
    else readFromField written target (!span.isEmpty) (offset + size + 1) left

/-- Reads a directive as it was written. -/
def parse (written : List Char) : Except Fault Directive :=
  match Text.trim written with
  | [] => .error .unreadable
  | '[' :: inside => readFromSpan written none 1 inside
  | c :: cs =>
    if canBegin c then do
      let (word, left) := (c :: cs).span fun c => c ≠ '=' && c ≠ '['
      let size := Text.byteSize word
      match left with
      | [] =>
        return match readLimit? written with
          | some limit => .rule { limit }
          | none => .rule { target := some (.ofList written), limit := widestLimit }
      | '[' :: inside =>
        let target ← cut 0 size written
        readFromSpan written (some (.ofList target)) (size + 1) inside
      | left =>
        let target ← cut 0 size written
        return .rule { target := some (.ofList target), limit := ← readLimitAt written size left }
    else .error .unreadable

end Directive

end MoteBench.CommandLine
