import MoteBench.Text.Blank

/-! The flags of a pattern, the blanks they let it have, and its escapes. -/
namespace MoteBench.Text.Pattern

/-- The flags on which it depends whether a pattern is well formed. -/
structure Flags where
  ignoreCase : Bool := false
  unicode : Bool := true
  spaced : Bool := false
  deriving DecidableEq, Repr

/-- Drops blanks, and comments up to the end of their line. -/
def skipComments (inComment : Bool) : List Char → List Char
  | [] => []
  | c :: cs =>
    if inComment then skipComments (c ≠ '\n') cs
    else if c = '#' then skipComments true cs
    else if isBlank c then skipComments false cs
    else c :: cs

namespace Flags

/-- Whether characters can be matched at all: folding their case takes tables. -/
def foldable (f : Flags) : Bool := !f.ignoreCase || !f.unicode

/-- What comes next to be read. -/
def skip (f : Flags) (cs : List Char) : List Char :=
  if f.spaced then skipComments false cs else cs

/-- The character that a dash in a set is judged by. It may come from a comment, of which nothing
but the mark and blanks are passed over. -/
def glance (f : Flags) (cs : List Char) : Option Char :=
  if f.spaced then
    match cs.dropWhile isBlank with
    | '#' :: cs => (cs.dropWhile isBlank).head?
    | cs => cs.head?
  else cs.head?

end Flags

/-- What an escape or a plain character stands for. -/
inductive Atom where
  | char (c : Char)
  /-- A class of characters with a name of its own. -/
  | named
  | assertion
  deriving DecidableEq, Repr

def hexValue? (c : Char) : Option Nat :=
  if c.isDigit then some (c.toNat - '0'.toNat)
  else if 'a' ≤ c.toLower ∧ c.toLower ≤ 'f' then some (c.toLower.toNat - 'a'.toNat + 10)
  else none

/-- The number written in exactly so many hexadecimal digits. -/
def readHex? (f : Flags) : (digits : Nat) → (value : Nat) → List Char → Option (Nat × List Char)
  | 0, value, cs => some (value, cs)
  | digits + 1, value, cs =>
    match f.skip cs with
    | [] => none
    | c :: cs =>
      match hexValue? c with
      | none => none
      | some d => readHex? f digits (16 * value + d) cs

/-- A character by its code point. A byte beyond ASCII is no character of its own. -/
def readCodePoint? (f : Flags) (digits : Nat) (cs : List Char) : Option (Atom × List Char) :=
  match readHex? f digits 0 cs with
  | none => none
  | some (n, rest) =>
    if n.isValidChar ∧ (f.unicode ∨ digits ≠ 2 ∨ n < 128) then
      some (.char (.ofNat n), f.skip rest)
    else none

/-- Punctuation may be escaped, but angle brackets stand for ends of words. -/
def isEscapable (c : Char) : Bool :=
  c.toNat < 128 && !c.isAlphanum && c ≠ '<' && c ≠ '>'

def controlNames : List (Char × Char) :=
  [('a', '\x07'), ('f', '\x0c'), ('t', '\t'), ('n', '\n'), ('r', '\r'), ('v', '\x0b')]

/-- Reads on after a backslash. -/
def readEscape? (f : Flags) : List Char → Option (Atom × List Char)
  | [] => none
  | c :: cs =>
    match controlNames.lookup c with
    | some control => some (.char control, cs)
    | none =>
      if c = 'x' then readCodePoint? f 2 cs
      else if c = 'u' then readCodePoint? f 4 cs
      else if c = 'U' then readCodePoint? f 8 cs
      else if c ∈ ['d', 's', 'w'] then if f.unicode then none else some (.named, cs)
      else if c ∈ ['b', 'B', '<', '>'] then if f.unicode then none else some (.assertion, cs)
      else if c ∈ ['A', 'z'] then some (.assertion, cs)
      else if isEscapable c then some (.char c, cs)
      else none

end MoteBench.Text.Pattern
