import ProbeLowering.DebugInfo.Snapshot
import ProbeLowering.Document.DebugInfo
import ProbeLowering.Document.Logical
import ProbeLowering.Document.Physical
import ProbeLowering.Json.Reader
import ProbeLowering.Lowering.Image
import ProbeLowering.Run.Failure
import ProbeLowering.Run.Journal

/-!
# Runs

A run settles its settings, opens its log, lowers the deployment and writes the
program to the output file or to standard output.  Nothing is written before
the whole program is there, apart from the log.
-/

namespace ProbeLowering

open DebugInfo

structure Outcome where
  exitCode : Nat
  output : String := ""
  failure? : Option RunFailure := none
  deriving DecidableEq, Repr

def Outcome.failed (failure : RunFailure) : Outcome :=
  { exitCode := failure.exitCode, failure? := some failure }

namespace Host

variable {m : Type → Type} [Monad m]

def readDocument {α : Type} (host : Host m) (decode? : Json → Option α)
    (document : InputDocument) (path : String) : m (Except RunFailure α) := do
  match ← host.readText path with
  | .error e => pure (.error (.unreadable document path e))
  | .ok text =>
      match (Json.parse? text).bind decode? with
      | some value => pure (.ok value)
      | none => pure (.error (.unparsable document path))

def factsFor (host : Host m) (journal : Journal) (settings : RunSettings)
    (deployment : Logical.Deployment) : m (Except RunFailure (Facts × Bool)) := do
  match settings.debugInfo? with
  | some path =>
      journal.note host (.ofSnapshot path)
      match ← host.readDocument Snapshot.decode? .debugInfo path with
      | .error e => pure (.error e)
      | .ok snapshot => pure (.ok (snapshot.facts, true))
  | none =>
      match deployment.program? with
      | .error e => pure (.error (.lowering e))
      | .ok _ =>
          let path := deployment.target.path
          journal.note host (.ofImage path)
          match ← host.imageFacts path with
          | .error e => pure (.error (.lowering (.debugInfo e)))
          | .ok facts => pure (.ok (facts, false))

def loweredProgram (host : Host m) (journal : Journal) (settings : RunSettings) :
    m (Except RunFailure Physical.Program) := do
  match ← host.readDocument Logical.Deployment.decode? .deployment settings.deployment with
  | .error e => pure (.error e)
  | .ok deployment =>
      match ← host.factsFor journal settings deployment with
      | .error e => pure (.error e)
      | .ok (facts, fromSnapshot) =>
          journal.noteAll host (loweringRecords facts fromSnapshot deployment)
          match lowerDeployment facts deployment with
          | .ok program =>
              journal.note host (.ofResult program)
              pure (.ok program)
          | .error e =>
              journal.noteAll host (errorRecords e)
              pure (.error (.lowering e))

/-- Writes the program where the settings say; the text for standard output is left. -/
def emit (host : Host m) (settings : RunSettings) (program : Physical.Program) :
    m (Except RunFailure String) := do
  let text := program.render settings.pretty
  match settings.output? with
  | none => pure (.ok text)
  | some path =>
      match ← host.write path text.toUTF8 with
      | .ok () => pure (.ok "")
      | .error e => pure (.error (.unwritable path e))

def lowerAndEmit (host : Host m) (journal : Journal) (settings : RunSettings) :
    m (Except RunFailure String) := do
  match ← host.loweredProgram journal settings with
  | .error e => pure (.error e)
  | .ok program => host.emit settings program

def runSettings (host : Host m) (args : Arguments) (environment? : Option String) :
    m (Except RunFailure RunSettings) := do
  match ← host.loadConfig args.config? with
  | .error e => pure (.error (.config e))
  | .ok config =>
      pure ((RunSettings.merge args config environment?).mapError .logLevel)

def openJournal (host : Host m) (settings : RunSettings) :
    m (Except RunFailure Journal) := do
  match LogFilter.parse settings.logFilter, settings.logFile? with
  | .error e, _ => pure (.error (.logFilter e))
  | .ok filter, none => pure (.ok ⟨filter, none⟩)
  | .ok filter, some path =>
      match ← host.write path .empty with
      | .ok () => pure (.ok ⟨filter, some path⟩)
      | .error e => pure (.error (.logFile path e))

/-- Runs with the arguments; a failure is noted once there is a journal. -/
def run (host : Host m) (args : Arguments) (environment? : Option String) :
    m Outcome := do
  match ← host.runSettings args environment? with
  | .error e => pure (Outcome.failed e)
  | .ok settings =>
      match ← host.openJournal settings with
      | .error e => pure (Outcome.failed e)
      | .ok journal =>
          journal.note host (.ofSettings settings)
          match ← host.lowerAndEmit journal settings with
          | .ok output => pure { exitCode := 0, output }
          | .error e =>
              journal.note host (.ofFailure e.message)
              pure (Outcome.failed e)

end Host

end ProbeLowering
