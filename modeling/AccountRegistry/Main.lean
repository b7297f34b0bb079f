import AccountRegistry.Keccak
import AccountRegistry.Log.Text
import AccountRegistry.Node

/-!
# The command line

Runs a node in the current directory.  The names of the signals that it gets are read from standard
input, one a line; the node stays up until one of them ends it or the input does.
-/

namespace AccountRegistry.CommandLine

/-- Write lines, each on its stream. -/
def writeLines (lines : List Log.Line) : IO Unit :=
  lines.forM fun line =>
    match line.stream with
    | .output => IO.println (Units.plain line.text)
    | .errors => IO.eprintln (Units.plain line.text)

/-- What is found at a path. -/
def readContent (path : String) : IO Content := do
  try
    let bytes ← IO.FS.readBinFile (Units.plain path)
    return .file bytes.toList
  catch
    | .inappropriateType .. => return .directory
    | _ => return .missing

/-- The variables of the process that a node reads. -/
def readEnvironment : IO Environment := do
  let names := ["NODE_ENV", "LOG_LEVEL", "PINO_LEVEL", "REGISTRY_SPEC_PATH", "REGISTRY_ADDRESS",
    "REGISTRY_OWNER", "DOTENV_KEY"]
  let found ← names.filterMapM fun name => do
    let value ← IO.getEnv name
    return value.map fun text => (name, Units.keep text)
  return ⟨found⟩

/-- Wait for a signal that ends the node. -/
partial def waitForSignal (input : IO.FS.Stream) (running : Node.Running) : IO UInt32 := do
  let line ← input.getLine
  if line.isEmpty then return 0
  if Node.ends line.trimAscii.toString then
    let ended := running.shutDown
    writeLines ended.2
    return UInt32.ofNat ended.1
  waitForSignal input running

/-- Go on from a stage once its lines are written; a process that ended returns its exit code. -/
def continueFrom {α : Type} (stage : Node.Stage α) (next : α → IO UInt32) : IO UInt32 := do
  writeLines stage.lines
  match stage.outcome with
  | .ok value => next value
  | .error code => return UInt32.ofNat code

/-- Run a node. -/
def run : IO UInt32 := do
  let environment ← readEnvironment
  match Node.boot environment (← readContent ".env") (← readContent ".env.vault").found? with
  | .error fault =>
      IO.eprintln (Units.plain fault.text)
      return 1
  | .ok booting =>
      continueFrom booting fun booted => do
        let content ← readContent booted.specPath
        continueFrom (Node.start Keccak.hash booted content) fun running => do
          waitForSignal (← IO.getStdin) running

end AccountRegistry.CommandLine

def main : IO UInt32 :=
  AccountRegistry.CommandLine.run
