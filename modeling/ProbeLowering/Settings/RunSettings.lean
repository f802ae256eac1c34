import ProbeLowering.Settings.Arguments
import ProbeLowering.Settings.Config
import ProbeLowering.Text.Blank

/-!
# Settings of a run

The command line counts before the environment, and that before the
configuration.  The environment gives a filter and not a level, and counts only
when it is not blank.
-/

namespace ProbeLowering

structure RunSettings where
  deployment : String
  debugInfo? : Option String
  output? : Option String
  pretty : Bool
  logFilter : String
  /-- Where to write the log, if it is written at all. -/
  logFile? : Option String
  deriving DecidableEq, Repr

namespace RunSettings

def isBlankText (text : String) : Bool := text.toList.all Text.isBlank

def chooseFilter (args : Arguments) (config : Config) (environment? : Option String) :
    Except LogLevel.UnknownLevel String :=
  match args.logLevel?, environment? with
  | some level, _ => (LogLevel.parse level).map LogLevel.name
  | none, some filter =>
      .ok (if isBlankText filter then config.general.logLevel.name else filter)
  | none, none => .ok config.general.logLevel.name

def chooseLogFile? (args : Arguments) (config : Config) : Option String :=
  if args.logging?.getD config.general.enableLogging then
    some (args.logFile?.getD config.general.logFile)
  else none

def merge (args : Arguments) (config : Config) (environment? : Option String) :
    Except LogLevel.UnknownLevel RunSettings := do
  let logFilter ← chooseFilter args config environment?
  pure {
    deployment := args.deployment
    debugInfo? := args.debugInfo?
    output? := args.output?
    pretty := config.output.pretty && !args.compact
    logFilter
    logFile? := chooseLogFile? args config }

end RunSettings

end ProbeLowering
