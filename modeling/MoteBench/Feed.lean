import MoteBench.Message
import MoteBench.Text.Lines

/-! Recorded output: a text of log lines, in which blank lines and lines with `#` in front are skipped. -/
namespace MoteBench.Feed

inductive Failure where
  | missing
  | notText
  | badLine (number : Nat) (cause : Message.LineError)
  deriving DecidableEq, Repr

def Failure.message : Failure → String
  | .missing => "failed to read feed: No such file or directory (os error 2)"
  | .notText => "failed to read feed: stream did not contain valid UTF-8"
  | .badLine number cause => s!"line {number}: {cause.message}"

def skipped (line : List Char) : Bool :=
  (Text.trim line).isEmpty || line.head? = some '#'

/-- Reads lines of which the first has the given number; every line counts, also a skipped one. -/
def parseLines : Nat → List (List Char) → Except Failure (List Message)
  | _, [] => .ok []
  | number, line :: rest =>
    if skipped line then parseLines (number + 1) rest
    else match Message.parse (.ofList line) with
      | .error cause => .error (.badLine number cause)
      | .ok m => (parseLines (number + 1) rest).map (m :: ·)

def parse (text : String) : Except Failure (List Message) :=
  parseLines 1 (Text.lines text.toList)

/-- Reads the contents of a file, `none` if there is no such file. -/
def load : Option ByteArray → Except Failure (List Message)
  | none => .error .missing
  | some bytes =>
    match String.fromUTF8? bytes with
    | none => .error .notText
    | some text => parse text

end MoteBench.Feed
