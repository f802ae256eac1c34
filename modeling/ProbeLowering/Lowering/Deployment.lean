import ProbeLowering.Lowering.Action
import ProbeLowering.Lowering.ReturnValue

/-!
# Lowering of probes and deployments

A probe is lowered part by part in a fixed order and joins the program only
when every part succeeded.  A deployment has exactly one tracepoint, whose
probes are lowered in order; the first that fails decides the answer.
-/

namespace ProbeLowering

open DebugInfo

namespace Build

def lowerParts (setting : Setting) (input : Logical.Probe) : Step Build Unit := do
  onScope do
    Scope.addSpecialVariables setting.language
    input.consts.forM Scope.addConstant
    input.args.forM (lowerArgument setting)
    input.retVals.forM (lowerReturnValue setting)
  input.mapVals.forM readMap
  match input.latency with
  | some latency => onScope (Scope.addLatency latency)
  | none => pure ()
  input.stashes.forM stash
  input.deletes.forM delete
  input.outputs.forM (output setting.language)
  changeProbe fun probe => { probe with printks := input.printks }

end Build

namespace Workspace

def lowerProbe (facts : Facts) (language : Language) (input : Logical.Probe)
    (w : Workspace) : Except LowerError Physical.Probe × Workspace :=
  match Setting.ofSymbol facts language input.tracepoint.symbol with
  | .error e => (.error e, w)
  | .ok setting =>
      let build : Build := ⟨w, Scope.start input.name input.tracepoint⟩
      match (Build.lowerParts setting input).runFrom build with
      | (.error e, b) => (.error e, b.workspace)
      | (.ok (), b) => (.ok b.scope.probe, b.workspace)

/-- Lowers a probe and appends it; an error names the probe. -/
def generateProbe (facts : Facts) (language : Language) (input : Logical.Probe) :
    Step Workspace Unit :=
  fun w =>
    match w.lowerProbe facts language input with
    | (.error e, w) => (.error (e.atProbe input.name), w)
    | (.ok probe, w) => (.ok (), w.addProbe probe)

def ofProgram (target : Target) (input : Logical.Program) : Workspace :=
  let start : Workspace := { program := { target, language := input.language } }
  (start.declareMaps input.maps).declareOutputs input.outputs

end Workspace

def Logical.Deployment.program? (deployment : Logical.Deployment) :
    Except LowerError Logical.Program :=
  match deployment.tracepoints with
  | [input] => .ok input
  | tracepoints => .error (.tracepointCount tracepoints.length)

def lowerDeployment (facts : Facts) (deployment : Logical.Deployment) :
    Except LowerError Physical.Program :=
  match deployment.program? with
  | .error e => .error e
  | .ok input =>
      let start := Workspace.ofProgram deployment.target input
      match (input.probes.forM
          (Workspace.generateProbe facts input.language)).runFrom start with
      | (.error e, _) => .error e
      | (.ok (), w) => .ok w.program

end ProbeLowering
