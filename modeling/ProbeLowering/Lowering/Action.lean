import ProbeLowering.Lowering.Scope
import ProbeLowering.Lowering.Workspace

/-!
# Map reads, stashes, deletes and outputs

Actions extend the probe and, where they settle the type of a map or output,
the program as well.  They write to the program before their last checks, so
an action that fails may have changed it.
-/

namespace ProbeLowering

open Physical (FieldAssignment)

/-- A probe under construction inside a workspace. -/
structure Build where
  workspace : Workspace
  scope : Scope
  deriving DecidableEq, Repr

namespace Build

def onScope {α : Type} (step : Step Scope α) : Step Build α :=
  step.within Build.scope fun b scope => { b with scope }

def onWorkspace (f : Workspace → Workspace) : Step Build Unit :=
  modify fun b => { b with workspace := f b.workspace }

def changeProbe (f : Physical.Probe → Physical.Probe) : Step Build Unit :=
  onScope (modify fun scope => { scope with probe := f scope.probe })

def mapHandleName (name : String) : String := name ++ "_ptr"

def valueVariableName (name : String) : String := name ++ "_value"

def addMembers (handle : String) (members : List (String × Physical.StructField)) :
    Step Scope Unit :=
  members.forM fun (id, field) =>
    Scope.addVariable (.member ⟨id, field.type, handle, true, field.name⟩)

def readMap (value : Logical.MapValue) : Step Build Unit := do
  let _ ← .query fun b => b.workspace.map? value.mapName
  let structName := structTypeName value.mapName
  let layout ← .query fun b => b.workspace.struct? structName
  if layout.fields.length < value.valueIds.length then
    throw (.mapValueCountMismatch value.mapName value.valueIds.length
      layout.fields.length)
  let handle := mapHandleName value.mapName
  onScope do
    let key ← Scope.keyVariable value.key
    Scope.addVariable (.map ⟨handle, structName, value.mapName, key⟩)
    addMembers handle (value.valueIds.zip layout.fields)

def stashAssignments (action : Logical.StashAction) : List FieldAssignment :=
  action.valueVariables.map fun name => ⟨name, name⟩

def stash (action : Logical.StashAction) : Step Build Unit := do
  let (index, map) ← .query fun b => b.workspace.map? action.mapName
  let record ← .query fun b => mapValueStruct action b.scope.symbols
  match map.valueStruct with
  | some existing =>
      if existing ≠ record.name then
        throw (.structTypeConflict action.mapName existing record.name)
  | none => pure ()
  onWorkspace fun w =>
    (w.setMap index
      { map with keyType := some .uint64, valueStruct := some record.name })
      |>.registerStruct record
  let variableName := valueVariableName action.mapName
  let key ← onScope do
    Scope.addVariable (.struct ⟨variableName, record.name, stashAssignments action⟩)
    Scope.keyVariable action.key
  changeProbe fun probe => { probe with
    stashes := probe.stashes ++ [⟨action.mapName, key, variableName, action.cond⟩] }

def delete (action : Logical.DeleteAction) : Step Build Unit := do
  let _ ← .query fun b => b.workspace.map? action.mapName
  let key ← onScope (Scope.keyVariable action.key)
  changeProbe fun probe => { probe with
    deletes := probe.deletes ++ [⟨action.mapName, key⟩] }

def outputAssignments (columns : List String) (action : Logical.OutputAction)
    (event : Physical.Struct) : List FieldAssignment :=
  ((columns ++ action.valueVariables).zip event.fields).map
    fun (variableName, field) => ⟨field.name, variableName⟩

def output (language : Language) (action : Logical.OutputAction) :
    Step Build Unit := do
  let columns := implicitColumns language
  let (index, buffer) ← .query fun b => b.workspace.output? action.outputName
  let event ← .query fun b =>
    outputStruct action buffer.fields columns b.scope.symbols
  if buffer.structType ≠ "" ∧ buffer.structType ≠ event.name then
    throw (.structTypeConflict action.outputName buffer.structType event.name)
  onWorkspace fun w =>
    (w.setOutput index { buffer with structType := event.name })
      |>.registerStruct event
  let variableName := valueVariableName action.outputName
  onScope (Scope.addVariable
    (.struct ⟨variableName, event.name, outputAssignments columns action event⟩))
  changeProbe fun probe => { probe with
    outputs := probe.outputs ++ [⟨action.outputName, variableName⟩] }

end Build

end ProbeLowering
