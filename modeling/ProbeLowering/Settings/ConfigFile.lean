import ProbeLowering.Files.Host
import ProbeLowering.Settings.Config

/-!
# Finding the configuration

A file that is named must exist.  Otherwise the file of the user counts before
that of the current directory, and without either the defaults hold.
-/

namespace ProbeLowering

inductive ConfigError where
  | missing (path : String)
  | unreadable (path : String) (error : FileError)
  | invalid (path text : String) (fault : Config.Fault)
  deriving DecidableEq, Repr

def ConfigError.message : ConfigError → String
  | missing path => s!"Specified configuration file does not exist: {path}"
  | unreadable path error =>
      s!"Failed to read configuration file '{path}': {error.detail}"
  | invalid path text fault => Config.report path text fault

def ConfigError.isSyntax : ConfigError → Bool
  | invalid _ _ ⟨.malformed _, _⟩ => true
  | _ => false

namespace Host

variable {m : Type → Type} [Monad m]

def readConfig (host : Host m) (path : String) : m (Except ConfigError Config) := do
  match ← host.readText path with
  | .error e => pure (.error (.unreadable path e))
  | .ok text => pure ((Config.parse text).mapError (.invalid path text))

def configPaths (host : Host m) : List String :=
  (host.home?.map (· ++ "/.tracelift/config.toml")).toList ++
    (host.directory?.map (· ++ "/tracelift.toml")).toList

/-- The first of the places where there is something decides. -/
def searchConfig (host : Host m) : List String → m (Except ConfigError Config)
  | [] => pure (.ok {})
  | path :: rest => do
      if ← host.isPresent path then host.readConfig path
      else host.searchConfig rest

def loadConfig (host : Host m) (explicit? : Option String) :
    m (Except ConfigError Config) := do
  match explicit? with
  | none => host.searchConfig host.configPaths
  | some path =>
      if ← host.isPresent path then host.readConfig path
      else pure (.error (.missing path))

end Host

end ProbeLowering
