import Mathlib.Data.List.Induction
import ProbeLowering.Proofs.Layout

/-!
# Actions that write a record

Stashes and outputs both write a record: they declare a record variable and make
its layout the record of its name.  `Build.Writes` is what either of them does
to a build (`writes_of_recordAction`).
-/

namespace ProbeLowering

open DebugInfo
open Physical (Struct StructVariable FieldAssignment PerfBuffer)

section Last

variable {α : Type} {key : α → String} {xs ys : List α} {x : α} {name : String}

theorem findRev?_concat :
    (xs ++ [x]).findRev? (fun a => key a == name) =
      if key x = name then some x else xs.findRev? fun a => key a == name := by
  by_cases h : key x = name <;> simp [h]

theorem findRev?_append_of_forall (h : ∀ later ∈ ys, key later = name → later = x)
    (hx : xs.findRev? (fun a => key a == name) = some x) :
    (xs ++ ys).findRev? (fun a => key a == name) = some x := by
  induction ys using List.reverseRecOn with
  | nil => simpa using hx
  | append_singleton ys y ih =>
      rw [← List.append_assoc, findRev?_concat]
      split
      next hy => rw [h y (by simp) hy]
      next => exact ih fun later hlater => h later (by simp [hlater])

theorem findRev?_append_of_mem (hmem : x ∈ ys)
    (h : ∀ later ∈ ys, key later = key x → later = x) :
    (xs ++ ys).findRev? (fun a => key a == key x) = some x := by
  obtain ⟨before, after, rfl⟩ := List.append_of_mem hmem
  have hsplit : xs ++ (before ++ x :: after) = (xs ++ before ++ [x]) ++ after := by simp
  rw [hsplit]
  refine findRev?_append_of_forall (fun later hlater => h later (by simp [hlater])) ?_
  rw [findRev?_concat, if_pos rfl]

theorem key_of_findRev? (h : xs.findRev? (fun a => key a == name) = some x) :
    key x = name := by
  rw [List.findRev?_eq_find?_reverse] at h
  simpa using List.find?_some h

theorem mem_of_findRev? (h : xs.findRev? (fun a => key a == name) = some x) :
    x ∈ xs := by
  rw [List.findRev?_eq_find?_reverse] at h
  simpa using List.mem_of_find?_eq_some h

theorem exists_findRev?_append (xs : List α) (key : α → String) (hx : x ∈ ys)
    (hname : key x = name) :
    ∃ y ∈ ys, key y = name ∧ (xs ++ ys).findRev? (fun a => key a == name) = some y := by
  induction ys using List.reverseRecOn with
  | nil => cases hx
  | append_singleton ys y ih =>
      rw [← List.append_assoc, findRev?_concat]
      split
      next hy => exact ⟨y, by simp, hy, rfl⟩
      next hy =>
        have hmem : x ∈ ys := by
          rcases List.mem_append.mp hx with hx | hx
          · exact hx
          · exact absurd (List.mem_singleton.mp hx ▸ hname) hy
        obtain ⟨z, hz, hzname, hlast⟩ := ih hmem
        exact ⟨z, by simp [hz], hzname, hlast⟩

theorem findRev?_map {β : Type} (f : β → α) (bs : List β) (p : α → Bool) :
    (bs.map f).findRev? p = (bs.findRev? fun b => p (f b)).map f := by
  simp only [List.findRev?_eq_find?_reverse, ← List.map_reverse, List.find?_map]
  rfl

end Last

namespace Workspace

def outputFields (w : Workspace) (name : String) : List String :=
  match w.output? name with
  | .error _ => []
  | .ok (_, buffer) => buffer.fields

theorem outputFields_eq (w : Workspace) (name : String) :
    w.outputFields name =
      (((w.registry.outputs.lookup name).bind fun i => w.program.outputs[i]?).map
        PerfBuffer.fields).getD [] := by
  unfold outputFields output?
  cases w.registry.outputs.lookup name with
  | none => rfl
  | some i => cases hi : w.program.outputs[i]? <;> simp [hi]

theorem outputFields_registerStruct (w : Workspace) (value : Struct) :
    (w.registerStruct value).outputFields = w.outputFields := by
  funext name
  rw [outputFields_eq, outputFields_eq, registerStruct]
  split <;> rfl

theorem outputFields_setOutput {w : Workspace} {index : Nat} {buffer next : PerfBuffer}
    (h : w.program.outputs[index]? = some buffer) (hnext : next.fields = buffer.fields) :
    (w.setOutput index next).outputFields = w.outputFields := by
  funext name
  rw [outputFields_eq, outputFields_eq, setOutput]
  cases w.registry.outputs.lookup name with
  | none => rfl
  | some i =>
      by_cases hi : index = i
      · subst hi
        obtain ⟨hlt, rfl⟩ := List.getElem?_eq_some_iff.mp h
        simp [hlt, hnext]
      · simp [List.getElem?_set_ne hi]

end Workspace

/-! ## Record actions -/

theorem structTypeName_inj {first second : String} :
    structTypeName first = structTypeName second ↔ first = second := by
  simp [structTypeName]

namespace Logical

inductive RecordAction where
  | stash (action : StashAction)
  | output (action : OutputAction)
  deriving DecidableEq, Repr

namespace RecordAction

def owner : RecordAction → String
  | stash action => action.mapName
  | output action => action.outputName

def columns (language : Language) (outputFields : String → List String) :
    RecordAction → List (String × String)
  | stash action => action.valueVariables.map fun name => (name, name)
  | output action =>
      (implicitColumns language).map (fun column => (column, column)) ++
        (outputFields action.outputName).zip action.valueVariables

def record (language : Language) (outputFields : String → List String)
    (action : RecordAction) : StructVariable where
  name := Build.valueVariableName action.owner
  structType := structTypeName action.owner
  assignments := (action.columns language outputFields).map
    fun (field, source) => ⟨field, source⟩

def step (language : Language) : RecordAction → Step Build Unit
  | stash action => Build.stash action
  | output action => Build.output language action

end RecordAction

def Probe.recordActions (probe : Probe) : List RecordAction :=
  probe.stashes.map .stash ++ probe.outputs.map .output

end Logical

open Logical (RecordAction)

namespace Build

/-- From `b` to `c` the record `v` is declared and written with a layout. -/
structure Writes (b c : Build) (v : StructVariable) (written : Struct) : Prop where
  layout : b.scope.probe.layout? v = some written
  vars : c.scope.probe.vars = b.scope.probe.vars ++ [.struct v]
  consistent : b.scope.Consistent → c.scope.Consistent
  workspace : (b.workspace.registerStruct written).SameRecords c.workspace
  outputFields : c.workspace.outputFields = b.workspace.outputFields

section

variable {language : Language} {b c : Build} (hb : b.scope.Consistent)

include hb

theorem writes_of_stash {action : Logical.StashAction}
    (h : (stash action).runFrom b = (.ok (), c)) :
    ∃ written, Writes b c
      ((RecordAction.stash action).record language b.workspace.outputFields)
      written := by
  have hextends := (keeps_stash (P := fun _ => True) (fun _ => trivial) action).of_run h
  obtain ⟨index, map, record, hrecord, -, hworkspace, hprobe⟩ := stash_ok h
  obtain ⟨-, hschema⟩ := stashRecord_ok hrecord
  unfold mapValueStruct at hschema
  cases hfields : schemaFields b.scope.symbols action.mapName
      (action.valueVariables.map fun name => (name, name)) with
  | error e =>
      rw [hfields] at hschema
      cases hschema
  | ok fields =>
      rw [hfields] at hschema
      cases hschema
      have htyped := hb.fields?_of_schemaFields hfields
      refine ⟨⟨structTypeName action.mapName, fields⟩, ?_, ?_, hextends.consistent, ?_, ?_⟩
      · simpa [Physical.Probe.layout?, RecordAction.record, RecordAction.owner,
          RecordAction.columns] using htyped
      · simp [hprobe, RecordAction.record, RecordAction.owner, RecordAction.columns,
          stashAssignments]
      · rw [hworkspace]
        exact Workspace.sameRecords_writeMap _ _ _ _
      · rw [hworkspace]
        exact Workspace.outputFields_registerStruct (b.workspace.setMap _ _) _

theorem writes_of_output {action : Logical.OutputAction}
    (h : (output language action).runFrom b = (.ok (), c)) :
    ∃ written, Writes b c
      ((RecordAction.output action).record language b.workspace.outputFields)
      written := by
  have hextends := (keeps_output (P := fun _ => True) (fun _ => trivial) language
    action).of_run h
  obtain ⟨index, buffer, event, hevent, hworkspace, hprobe⟩ := output_ok h
  obtain ⟨houtput, hschema⟩ := outputRecord_ok hevent
  have hbuffer : b.workspace.outputFields action.outputName = buffer.fields := by
    simp [Workspace.outputFields, houtput]
  unfold outputStruct at hschema
  split at hschema
  next => contradiction
  next hlength =>
    cases hfields : schemaFields b.scope.symbols action.outputName
        ((implicitColumns language).map (fun column => (column, column)) ++
          buffer.fields.zip action.valueVariables) with
    | error e =>
        rw [hfields] at hschema
        cases hschema
    | ok fields =>
        rw [hfields] at hschema
        cases hschema
        have htyped := hb.fields?_of_schemaFields hfields
        have hassigned := zip_sources_of_schemaFields hfields
        have hsources : ((implicitColumns language).map (fun column => (column, column)) ++
            buffer.fields.zip action.valueVariables).map Prod.snd =
              implicitColumns language ++ action.valueVariables := by
          rw [List.map_append, List.map_map, List.map_snd_zip (by omega)]
          simp [Function.comp_def]
        rw [hsources] at hassigned
        refine ⟨⟨structTypeName action.outputName, fields⟩, ?_, ?_, hextends.consistent,
          ?_, ?_⟩
        · rw [Physical.Probe.layout?, RecordAction.record, RecordAction.columns, hbuffer,
            htyped]
          rfl
        · rw [hprobe, RecordAction.record, RecordAction.columns, hbuffer, ← hassigned]
          rfl
        · rw [hworkspace]
          exact Workspace.sameRecords_writeBuffer _ _ _ _
        · rw [hworkspace, writeBuffer, Workspace.outputFields_registerStruct]
          exact Workspace.outputFields_setOutput (Workspace.output?_ok.mp houtput).2 rfl

theorem writes_of_recordAction {action : RecordAction}
    (h : (action.step language).runFrom b = (.ok (), c)) :
    ∃ written, Writes b c (action.record language b.workspace.outputFields) written := by
  cases action with
  | stash action => exact writes_of_stash hb h
  | output action => exact writes_of_output hb h

end

end Build

end ProbeLowering
