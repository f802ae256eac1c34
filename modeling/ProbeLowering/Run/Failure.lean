import ProbeLowering.Lowering.Error
import ProbeLowering.Settings.ConfigFile
import ProbeLowering.Settings.LogFilter

/-!
# Failures of a run

A run fails with a message and an exit code.  The message names the failure and
then everything it was raised from.
-/

namespace ProbeLowering

inductive InputDocument where
  | deployment
  | debugInfo
  deriving DecidableEq, Repr

def InputDocument.display : InputDocument → String
  | deployment => "deployment"
  | debugInfo => "debug info"

inductive RunFailure where
  | config (error : ConfigError)
  | logLevel (error : LogLevel.UnknownLevel)
  | logFilter (error : FilterError)
  | logFile (path : String) (error : FileError)
  | unreadable (document : InputDocument) (path : String) (error : FileError)
  | unparsable (document : InputDocument) (path : String)
  | lowering (error : LowerError)
  | unwritable (path : String) (error : FileError)
  deriving DecidableEq, Repr

namespace RunFailure

def chain : RunFailure → List String
  | config error => [error.message]
  | logLevel error => [error.message]
  | logFilter error => error.chain
  | logFile path error => [s!"Failed to open log file '{path}': {error.detail}"]
  | unreadable document path error =>
      [s!"Failed to read {document.display} '{path}'", error.detail]
  | unparsable document path =>
      [s!"Failed to parse {document.display} '{path}'", "the document is not valid"]
  | lowering error => error.chain
  | unwritable path error => [s!"Failed to write program to '{path}'", error.detail]

def message (failure : RunFailure) : String := ": ".intercalate failure.chain

def exitCode : RunFailure → Nat
  | lowering error => error.exitCode
  | _ => 1

theorem exitCode_ne_zero (failure : RunFailure) : failure.exitCode ≠ 0 := by
  cases failure <;> simp [exitCode, LowerError.exitCode]
  split <;> decide

end RunFailure

end ProbeLowering
