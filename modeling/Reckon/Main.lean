import Reckon.CommandLine.Run

/-!
# The program

Reads the input, writes what a run writes, and asks for lines at a prompt where one is wanted.
-/
namespace Reckon.CommandLine

/-- Writes a transcript. -/
def writeTranscript (t : Transcript) : IO Unit := do
  t.errors.forM IO.eprintln
  t.output.forM IO.println

/-- The status of a run with its ending. -/
def finishRun : Ending → IO UInt32
  | .exit status => return status.toUInt32
  | .escaped breakdown => do
    IO.eprintln breakdown.message
    return 1

/-- Asks for lines and takes them one after another. -/
partial def converse (o : Options) (prompt : String) (c : Calculator) : IO UInt32 := do
  writeTranscript (asking o.verbose)
  IO.print prompt
  (← IO.getStdout).flush
  let line ← (← IO.getStdin).getLine
  if line.isEmpty then return 0
  match turn o.verbose c line with
  | .finish ending => finishRun ending
  | .next record after => do
    writeTranscript record
    converse o prompt after

/-- The rest of the input. -/
partial def readInput (input : IO.FS.Stream) (read : String) : IO String := do
  let line ← input.getLine
  if line.isEmpty then return read else readInput input (read ++ line)

/-- Evaluates what the options give, what is typed, or what the input holds. -/
def runOptions (o : Options) : IO UInt32 := do
  match o.expressions, o.prompting with
  | none, some prompt => do
    let start := prepare o
    writeTranscript start.1
    match start.2 with
    | .ok c => converse o prompt c
    | .error breakdown => finishRun (.escaped breakdown)
  | some _, _ => do
    let report := execute o ⟨"", ""⟩
    writeTranscript report.transcript
    finishRun report.ending
  | none, none => do
    let report := execute o ⟨← readInput (← IO.getStdin) "", ""⟩
    writeTranscript report.transcript
    finishRun report.ending

end Reckon.CommandLine

open Reckon.CommandLine in
/-- Runs the program with the words of its command line. -/
def main (args : List String) : IO UInt32 := do
  match plan args with
  | .error report => do
    writeTranscript report.transcript
    finishRun report.ending
  | .ok o => runOptions o
