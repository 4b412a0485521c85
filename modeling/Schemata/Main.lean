import Schemata.CommandLine.Run
import Schemata.Manifest.Surroundings

/-!
# The command line

Standard input describes the surroundings of the run, declarations included; the
arguments are the words of the command line.
-/

namespace Schemata

/-- How the command is used. -/
def Ending.usage : String :=
  "Usage: build [--inline] [--title TEXT] [--version TEXT] [--verbose] [--help] TARGETS..."

/-- Print how a run ended. -/
def Ending.print : Ending → IO Unit
  | .printed text => IO.print text
  | .reported _ text _ => IO.eprint text
  | .helped => IO.println usage
  | .refused => IO.eprintln usage
  | .failed f => IO.eprintln f.message

/-- Run a command line in surroundings that are still to be read. -/
def runIn (manifest : String) (words : List String) : Except Fault Ending :=
  match Json.read? manifest with
  | none => .error (.aborted "malformed surroundings")
  | some v =>
    match Intake.surroundings v {} with
    | .ok w _ => .ok (w.run words)
    | .error f _ => .error f

end Schemata

/-- Run the command line. -/
def main (words : List String) : IO UInt32 := do
  let manifest ← (← IO.getStdin).readToEnd
  match Schemata.runIn manifest words with
  | .ok ending =>
    ending.print
    return UInt32.ofNat ending.exitCode.toNat
  | .error f =>
    IO.eprintln f.message
    return 1
