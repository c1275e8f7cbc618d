import MapEmbed.Command.Program
import MapEmbed.Page.BlockId

/-!
# The command line

Carries out the plan of a run on the files and variables of the computer. The numbers of fresh identifiers count on
from one that is drawn at random.
-/

namespace MapEmbed

/-- Reads a file. Faults that a plan does not know end the run. -/
def readFile (path : Text) : IO (Except FileFault (List UInt8)) := do
  try
    return .ok (← IO.FS.readBinFile (String.ofList path)).toList
  catch fault =>
    match fault with
    | .noFileOrDirectory .. => return .error .missing
    | .inappropriateType .. => return .error .directory
    | other => throw other

/-- Carries out a plan. -/
def Plan.perform {α : Type} : Plan α → IO α
  | .done value => return value
  | .lookUp name next => do
    let found ← IO.getEnv (String.ofList name)
    (next (found.map String.toList)).perform
  | .read path next => do
    let outcome ← readFile path
    (next outcome).perform
  | .write path content next => do
    IO.FS.writeFile (String.ofList path) (String.ofList content)
    next.perform

/-- The number that some bytes denote. -/
def numberOfBytes (bytes : List UInt8) : Nat :=
  bytes.foldl (fun total byte => total * 256 + byte.toNat) 0

/-- How a run is asked for: the help, and what is said of arguments that make no sense. -/
def usage : String :=
  "usage: osm-embed [--config PATH] TASK\n" ++
  "tasks: migrate FILE [--in-place] | render FILE | styles [--dependency KIND] | globals\n"

/-- Shows how a run ended. -/
def Command.Outcome.report (outcome : Command.Outcome) : IO Unit := do
  (← IO.getStdout).putStr (String.ofList outcome.output)
  match outcome with
  | .printed _ => return ()
  | .helped => (← IO.getStdout).putStr usage
  | .failed message => (← IO.getStderr).putStr (String.ofList message ++ "\n")
  | .misused => (← IO.getStderr).putStr usage

end MapEmbed

/-- Runs the program. -/
def main (arguments : List String) : IO UInt32 := do
  let first := MapEmbed.numberOfBytes (← IO.getRandomBytes 16).toList
  let plan := MapEmbed.Command.run (fun number => MapEmbed.Page.blockIdOf (first + number))
    (arguments.map String.toList)
  let outcome ← plan.perform
  outcome.report
  return UInt32.ofNat outcome.code
