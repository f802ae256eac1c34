import ProbeLowering.Files.Host
import ProbeLowering.Lowering.Deployment
import ProbeLowering.Settings.LogFilter
import ProbeLowering.Settings.RunSettings

/-!
# The journal of a run

Records of what a run does.  Those that pass the filter are shown, and go to
the end of the log file if there is one.
-/

namespace ProbeLowering

open DebugInfo

structure Journal where
  filter : LogFilter
  logFile? : Option String

namespace Journal

variable {m : Type → Type} [Monad m]

def note (journal : Journal) (host : Host m) (record : LogRecord) : m Unit := do
  if journal.filter.passes record then
    host.announce record.line
    match journal.logFile? with
    | some path => host.append path record.line
    | none => pure ()

def noteAll (journal : Journal) (host : Host m) (records : List LogRecord) : m Unit :=
  records.forM (journal.note host)

end Journal

namespace LogRecord

def ofSettings (settings : RunSettings) : LogRecord :=
  ⟨.debug, "tracelift",
    s!"Settings: deployment {settings.deployment}, filter {settings.logFilter}"⟩

def ofSnapshot (path : String) : LogRecord :=
  ⟨.info, "tracelift::driver", s!"Using debug info snapshot {path}"⟩

def ofImage (path : String) : LogRecord :=
  ⟨.info, "tracelift_dwarf::reader", s!"Loading DWARF sections from {path}"⟩

def ofResult (program : Physical.Program) : LogRecord :=
  ⟨.info, "tracelift::driver",
    s!"Lowered {program.probes.length} probe(s), {program.structs.length} struct(s)"⟩

def ofFailure (message : String) : LogRecord :=
  ⟨.error, "tracelift", s!"Lowering failed: {message}"⟩

end LogRecord

/-- Probes up to the first that cannot be lowered, that one included. -/
def attempts (facts : Facts) (language : Language) :
    Workspace → List Logical.Probe → List Logical.Probe
  | _, [] => []
  | w, probe :: rest =>
      match (Workspace.generateProbe facts language probe).runFrom w with
      | (.ok (), w) => probe :: attempts facts language w rest
      | (.error _, _) => [probe]

/-- A snapshot notes that it was asked for arguments; images note it elsewhere. -/
def lookupRecords (facts : Facts) (fromSnapshot : Bool) (symbol : String) :
    List LogRecord :=
  match fromSnapshot, facts.args symbol with
  | true, .ok args =>
      [⟨.debug, "tracelift_dwarf::memory",
        s!"{symbol} has {args.size} recorded arguments"⟩]
  | _, _ => []

def variableRecords (facts : Facts) (language : Language) (probe : Logical.Probe) :
    List LogRecord :=
  match Setting.ofSymbol facts language probe.tracepoint.symbol with
  | .ok _ => [⟨.debug, "tracelift_compiler::probe", s!"[{probe.name}] variables"⟩]
  | .error _ => []

def probeRecords (facts : Facts) (fromSnapshot : Bool) (language : Language)
    (probe : Logical.Probe) : List LogRecord :=
  ⟨.info, "tracelift_compiler::program",
      s!"Lowering probe {probe.name} on {probe.tracepoint.symbol}"⟩ ::
    (lookupRecords facts fromSnapshot probe.tracepoint.symbol ++
      variableRecords facts language probe)

def loweringRecords (facts : Facts) (fromSnapshot : Bool)
    (deployment : Logical.Deployment) : List LogRecord :=
  match deployment.program? with
  | .error _ => []
  | .ok input =>
      let start := Workspace.ofProgram deployment.target input
      ⟨.info, "tracelift_compiler::program",
          s!"Lowering {input.probes.length} probes for {deployment.target.path}"⟩ ::
        (attempts facts input.language start input.probes).flatMap
          (probeRecords facts fromSnapshot input.language)

def errorRecords (error : LowerError) : List LogRecord :=
  match error.rootCause with
  | .debugInfo (.invalid (.unsupportedTag tag)) =>
      [⟨.debug, "tracelift_dwarf::parser::type_walker", s!"Unsupported type tag {tag}"⟩]
  | _ => []

end ProbeLowering
