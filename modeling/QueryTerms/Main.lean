/-
QueryTerms.Main — the program: arguments in, lines out.

Reads the one file that the arguments may name, runs, and prints what the run answers.
-/
import QueryTerms.CommandLine.Run

open QueryTerms.CommandLine

/-- The bytes of a file, if they can be read. -/
def readFile? (path : String) : IO (Option ByteArray) := do
  try
    return some (← IO.FS.readBinFile path)
  catch _ =>
    return none

/-- Runs on the arguments; the exit code tells success, failure and misuse apart. -/
def main (arguments : List String) : IO UInt32 := do
  let content ← match (Invocation.ofArguments? arguments).bind Invocation.config with
    | some path => readFile? path
    | none => pure none
  let outcome := run arguments fun _ => content
  IO.print outcome.standardOutput
  match outcome with
  | .success _ => pure ()
  | .failure f => IO.eprintln ("Error: " ++ f.message)
  | .usage => IO.eprintln "error: these arguments are not understood"
  return outcome.exitCode.toUInt32
