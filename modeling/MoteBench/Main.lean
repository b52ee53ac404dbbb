import MoteBench.CommandLine.Session

/-! The program: reads the feed it is pointed to, and prints what the session has to say. -/
open MoteBench.CommandLine

/-- The contents of a file, or nothing if it cannot be read. -/
def readContents (path : String) : IO (Option ByteArray) := do
  try
    return some (← IO.FS.readBinFile path)
  catch _ =>
    return none

def main (words : List String) : IO UInt32 := do
  let request := Request.ofWords words
  let contents ← match request.feed? with
    | none => pure none
    | some path => readContents path
  let ending := request.answer contents
  for line in ending.lines do
    IO.println line
  if ending.exitCode = 2 then
    IO.eprintln usageLine
  return ending.exitCode.toUInt32
