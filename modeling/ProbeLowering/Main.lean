import ProbeLowering.Run.Command

/-!
# The command line

Connects runs to the files, the environment and the streams of the system.
-/

namespace ProbeLowering

def fileResult {α : Type} (action : IO α) : IO (Except FileError α) := do
  try
    return .ok (← action)
  catch e =>
    return .error ⟨toString e⟩

/-- What cannot be opened may still exist; only a missing name means that it does not. -/
def isPresentOnDisk (path : String) : IO Bool := do
  try
    let _ ← IO.FS.Handle.mk path .read
    return true
  catch
    | .noFileOrDirectory _ _ _ | .inappropriateType _ _ _ => return false
    | _ => return true

def appendOnDisk (path text : String) : IO Unit := do
  (← IO.FS.Handle.mk path .append).putStr text

def systemHost : IO (Host IO) := do
  let home? ← IO.getEnv "HOME"
  let directory := toString (← IO.currentDir)
  pure {
    home? := home?.filter fun home => !home.isEmpty
    directory? := some directory
    isPresent := isPresentOnDisk
    read := fun path => fileResult (IO.FS.readBinFile path)
    write := fun path bytes => fileResult (IO.FS.writeBinFile path bytes)
    append := fun path text => do
      let _ ← fileResult (appendOnDisk path text)
    announce := fun line => IO.eprint line }

def runOnSystem (args : Arguments) : IO UInt32 := do
  let host ← systemHost
  let outcome ← host.run args (← IO.getEnv "RUST_LOG")
  IO.print outcome.output
  match outcome.failure? with
  | some failure => IO.eprintln s!"Error: {failure.message}"
  | none => pure ()
  return outcome.exitCode.toUInt32

def runLine (line : List String) : IO UInt32 := do
  match Arguments.parse line with
  | .ok args => runOnSystem args
  | .error .help =>
      IO.print Arguments.helpText
      return 0
  | .error .version =>
      IO.print Arguments.versionText
      return 0
  | .error (.misuse e) =>
      IO.eprintln s!"error: {e.message}"
      return 2

end ProbeLowering

def main (line : List String) : IO UInt32 := ProbeLowering.runLine line
