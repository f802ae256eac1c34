/-!
# Arguments

A command line holds one deployment, options that take a value, and flags.  The
value of an option is either attached to it or the next argument, and is only
stored when the next part of the line has been recognised.  After a lone pair
of dashes every argument is a deployment.
-/

namespace ProbeLowering

structure Arguments where
  deployment : String
  debugInfo? : Option String := none
  output? : Option String := none
  config? : Option String := none
  logLevel? : Option String := none
  logFile? : Option String := none
  log : Bool := false
  noLog : Bool := false
  compact : Bool := false
  deriving DecidableEq, Repr

namespace Arguments

def logging? (args : Arguments) : Option Bool :=
  if args.log then some true else if args.noLog then some false else none

inductive ValueOption where
  | debugInfo
  | output
  | config
  | logLevel
  | logFile
  deriving DecidableEq, Repr

inductive Flag where
  | log
  | noLog
  | compact
  deriving DecidableEq, Repr

inductive Switch where
  | value (option : ValueOption)
  | flag (flag : Flag)
  | help
  | version
  deriving DecidableEq, Repr

def ValueOption.name : ValueOption → String
  | debugInfo => "debug-info"
  | output => "output"
  | config => "config"
  | logLevel => "log-level"
  | logFile => "log-file"

/-- A level is any text, but a path is not empty. -/
def ValueOption.isPath : ValueOption → Bool
  | logLevel => false
  | debugInfo | output | config | logFile => true

def Flag.name : Flag → String
  | log => "log"
  | noLog => "no-log"
  | compact => "compact"

def ofLongName? : String → Option Switch
  | "debug-info" => some (.value .debugInfo)
  | "output" => some (.value .output)
  | "config" => some (.value .config)
  | "log-level" => some (.value .logLevel)
  | "log-file" => some (.value .logFile)
  | "log" => some (.flag .log)
  | "no-log" => some (.flag .noLog)
  | "compact" => some (.flag .compact)
  | "help" => some .help
  | "version" => some .version
  | _ => none

def ofShortName? : Char → Option Switch
  | 'd' => some (.value .debugInfo)
  | 'o' => some (.value .output)
  | 'h' => some .help
  | 'V' => some .version
  | _ => none

inductive UsageError where
  | unknownArgument (argument : String)
  | missingDeployment
  | missingValue (option : ValueOption)
  | emptyDeployment
  | emptyPath (option : ValueOption)
  | repeatedOption (option : ValueOption)
  | repeatedFlag (flag : Flag)
  | loggingConflict
  | unwantedValue (name value : String)
  deriving DecidableEq, Repr

def UsageError.message : UsageError → String
  | unknownArgument argument => s!"unexpected argument '{argument}' found"
  | missingDeployment => "the deployment was not provided"
  | missingValue option | emptyPath option =>
      s!"a value is required for '--{option.name}' but none was supplied"
  | emptyDeployment => "a value is required for the deployment but none was supplied"
  | repeatedOption option =>
      s!"the argument '--{option.name}' cannot be used multiple times"
  | repeatedFlag flag =>
      s!"the argument '--{flag.name}' cannot be used multiple times"
  | loggingConflict => "the argument '--log' cannot be used with '--no-log'"
  | unwantedValue name value => s!"unexpected value '{value}' for '--{name}' found"

/-- A line that asks for something else than a run, or for nothing that makes sense. -/
inductive Stop where
  | help
  | version
  | misuse (error : UsageError)
  deriving DecidableEq, Repr

def versionText : String := "tracelift 0.1.0\n"

def helpText : String :=
  "Lower a logical tracing program into an offset-based physical program\n\n" ++
  "Usage: tracelift [OPTIONS] <DEPLOYMENT>\n\n" ++
  "  -d, --debug-info <PATH>  read debug information from a snapshot\n" ++
  "  -o, --output <PATH>      write the program to a file\n" ++
  "      --config <PATH>      read the configuration from a file\n" ++
  "      --log-level <LEVEL>  error, warn, info, debug or trace\n" ++
  "      --log-file <PATH>    where to write the log\n" ++
  "      --log                write a log file\n" ++
  "      --no-log             write no log file\n" ++
  "      --compact            write the program on one line\n" ++
  "  -h, --help               print this text\n" ++
  "  -V, --version            print the version\n"

/-! ## Reading a line -/

inductive Pending where
  | none
  | deployment (path : String)
  | awaiting (option : ValueOption)
  | valued (option : ValueOption) (value : String)
  deriving DecidableEq, Repr

structure Reading where
  deployment? : Option String := none
  values : List (ValueOption × String) := []
  flags : List Flag := []
  pending : Pending := .none
  deriving DecidableEq, Repr

namespace Reading

abbrev Step := Except Stop Reading

def misuse {α : Type} (error : UsageError) : Except Stop α := .error (.misuse error)

def storeValue (r : Reading) (option : ValueOption) (value : String) : Step :=
  if (r.values.lookup option).isSome then misuse (.repeatedOption option)
  else if option.isPath && value.isEmpty then misuse (.emptyPath option)
  else .ok { r with values := (option, value) :: r.values }

def settle (r : Reading) : Step :=
  let settled := { r with pending := .none }
  match r.pending with
  | .none => .ok r
  | .awaiting option => misuse (.missingValue option)
  | .valued option value => settled.storeValue option value
  | .deployment path =>
      if path.isEmpty then misuse .emptyDeployment
      else .ok { settled with deployment? := some path }

def setFlag (r : Reading) (flag : Flag) : Step := do
  let r ← r.settle
  if r.flags.contains flag then misuse (.repeatedFlag flag)
  else pure { r with flags := flag :: r.flags }

def acceptSwitch (r : Reading) (switch : Switch) (attached? : Option String) : Step := do
  match switch, attached? with
  | .value option, some value => (← r.settle).storeValue option value
  | .value option, none => pure { ← r.settle with pending := .awaiting option }
  | .flag flag, _ => r.setFlag flag
  | .help, _ =>
      let _ ← r.settle
      throw .help
  | .version, _ =>
      let _ ← r.settle
      throw .version

def acceptLong (r : Reading) (text : String) : Step :=
  let (name, rest) := text.toList.span (· != '=')
  let name := String.ofList name
  let attached? := if rest.isEmpty then none else some (String.ofList (rest.drop 1))
  match ofLongName? name, attached? with
  | none, _ => misuse (.unknownArgument ("--" ++ text))
  | some (.value option), _ => r.acceptSwitch (.value option) attached?
  | some _, some value => misuse (.unwantedValue name value)
  | some switch, none => r.acceptSwitch switch none

/-- A short name; what follows it is its value, and an equals sign may come between. -/
def acceptShort (r : Reading) (letter : Char) (rest : List Char) : Step :=
  let attached? := match rest with
    | [] => none
    | '=' :: value => some (String.ofList value)
    | value => some (String.ofList value)
  match ofShortName? letter with
  | none => misuse (.unknownArgument (String.ofList ['-', letter]))
  | some switch => r.acceptSwitch switch attached?

def hasDeployment (r : Reading) : Bool :=
  match r.pending with
  | .deployment _ => true
  | _ => r.deployment?.isSome

def acceptPlain (r : Reading) (text : String) : Step :=
  if r.hasDeployment then misuse (.unknownArgument text)
  else do pure { ← r.settle with pending := .deployment text }

/-- An argument that is neither a pair of dashes nor after one. -/
def accept (r : Reading) (text : String) : Step :=
  match text.toList, r.pending with
  | '-' :: '-' :: rest, _ => r.acceptLong (String.ofList rest)
  | '-' :: letter :: rest, _ => r.acceptShort letter rest
  | _, .awaiting option => .ok { r with pending := .valued option text }
  | _, _ => r.acceptPlain text

def acceptAll (r : Reading) : List String → Step
  | [] => .ok r
  | "--" :: rest => rest.foldlM acceptPlain r
  | text :: rest => do (← r.accept text).acceptAll rest

def finish (r : Reading) : Except Stop Arguments := do
  let r ← r.settle
  if r.flags.contains .log && r.flags.contains .noLog then misuse .loggingConflict
  match r.deployment? with
  | none => misuse .missingDeployment
  | some deployment =>
      pure {
        deployment
        debugInfo? := r.values.lookup .debugInfo
        output? := r.values.lookup .output
        config? := r.values.lookup .config
        logLevel? := r.values.lookup .logLevel
        logFile? := r.values.lookup .logFile
        log := r.flags.contains .log
        noLog := r.flags.contains .noLog
        compact := r.flags.contains .compact }

end Reading

def parse (line : List String) : Except Stop Arguments := do
  (← Reading.acceptAll {} line).finish

end Arguments

end ProbeLowering
