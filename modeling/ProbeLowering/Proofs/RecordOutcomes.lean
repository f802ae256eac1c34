import ProbeLowering.Proofs.Itinerary
import ProbeLowering.Proofs.ReachedStates

/-!
# What stashes and events need and do

A stash and an event each check several things, and what they check last depends on names
that they have declared themselves.  In every state that lowering reaches, an event can be
sent exactly if its output is declared, has a field for each of its variables, these are
scalars and the name of the record variable is free (`output_outcome`).  A stash can be
made exactly if its map is declared and not of another type, its values are scalars, its key
is there and the name of the record variable is free (`stash_outcome`).  Both then register
a record that agrees field by field with what is assigned to the variable.
-/

namespace ProbeLowering

open DebugInfo
open Physical (Variable Struct StructField FieldAssignment PerfBuffer)
open Logical (RecordAction Part)

def FieldOf (symbols : SymbolTable) (assignment : FieldAssignment) (field : StructField) :
    Prop :=
  field.name = assignment.fieldName ∧
    symbols.scalarType? assignment.variableName = some field.type

theorem names_of_fieldOf {symbols : SymbolTable} {assignments : List FieldAssignment}
    {fields : List StructField} (h : List.Forall₂ (FieldOf symbols) assignments fields) :
    fields.map (·.name) = assignments.map (·.fieldName) := by
  induction h with
  | nil => rfl
  | cons hfield _ ih => rw [List.map_cons, List.map_cons, hfield.1, ih]

theorem zip_of_fieldOf {symbols : SymbolTable} {assignments : List FieldAssignment}
    {fields : List StructField} (h : List.Forall₂ (FieldOf symbols) assignments fields) :
    ((assignments.map (·.variableName)).zip fields).map
        (fun (source, field) => FieldAssignment.mk field.name source) = assignments := by
  induction h with
  | nil => rfl
  | cons hfield _ ih => simpa [hfield.1] using ih

section Schemas

variable {symbols : SymbolTable} (owner : String)

theorem requireScalar_ok_iff {name : String} {type : ScalarType} :
    symbols.requireScalar owner name = .ok type ↔ symbols.scalarType? name = some type := by
  rw [SymbolTable.requireScalar_ok, SymbolTable.scalarType?_eq_some_iff]

theorem schemaFields_cons_ok {field source : String} {rest : List (String × String)}
    {fields : List StructField} :
    schemaFields symbols owner ((field, source) :: rest) = .ok fields ↔
      ∃ type later, symbols.scalarType? source = some type ∧
        schemaFields symbols owner rest = .ok later ∧ fields = ⟨field, type⟩ :: later := by
  simp only [← requireScalar_ok_iff owner, schemaFields]
  cases symbols.requireScalar owner source with
  | error e => simp
  | ok type => cases schemaFields symbols owner rest <;> simp [eq_comm]

theorem schemaFields_ok_iff {columns : List (String × String)} {fields : List StructField} :
    schemaFields symbols owner columns = .ok fields ↔
      List.Forall₂ (FieldOf symbols) (columns.map fun (field, source) => ⟨field, source⟩)
        fields := by
  induction columns generalizing fields with
  | nil => simp [schemaFields, eq_comm]
  | cons column rest ih =>
      obtain ⟨field, source⟩ := column
      rw [schemaFields_cons_ok, List.map_cons, List.forall₂_cons_left_iff]
      constructor
      · rintro ⟨type, later, htype, hlater, rfl⟩
        exact ⟨⟨field, type⟩, later, ⟨rfl, htype⟩, ih.mp hlater, rfl⟩
      · rintro ⟨⟨_, type⟩, later, ⟨rfl, htype⟩, hlater, rfl⟩
        exact ⟨type, later, htype, ih.mpr hlater, rfl⟩

theorem exists_schemaFields_iff {columns : List (String × String)} :
    (∃ fields, schemaFields symbols owner columns = .ok fields) ↔
      ∀ source ∈ columns.map Prod.snd, ∃ type, symbols.scalarType? source = some type := by
  induction columns with
  | nil => simp [schemaFields]
  | cons column rest ih =>
      obtain ⟨field, source⟩ := column
      simp only [schemaFields_cons_ok, List.map_cons, List.forall_mem_cons, ← ih]
      constructor
      · rintro ⟨_, type, later, htype, hlater, -⟩
        exact ⟨⟨type, htype⟩, later, hlater⟩
      · rintro ⟨⟨type, htype⟩, later, hlater⟩
        exact ⟨_, type, later, htype, hlater, rfl⟩

end Schemas

namespace Build

variable {b c : Build}

theorem mapValueStruct_ok_iff {action : Logical.StashAction} {symbols : SymbolTable}
    {record : Struct} :
    mapValueStruct action symbols = .ok record ↔
      record.name = structTypeName action.mapName ∧
        List.Forall₂ (FieldOf symbols) (stashAssignments action) record.fields := by
  have hcolumns : stashAssignments action =
      (action.valueVariables.map fun name => (name, name)).map
        fun (field, source) => ⟨field, source⟩ := by
    simp [stashAssignments]
  rw [hcolumns, ← schemaFields_ok_iff action.mapName]
  constructor
  · intro h
    obtain ⟨fields, hfields, rfl⟩ := exists_ok_of_map_ok h
    exact ⟨rfl, hfields⟩
  · obtain ⟨name, fields⟩ := record
    rintro ⟨rfl, hfields⟩
    simp [mapValueStruct, hfields, Except.map]

theorem exists_mapValueStruct_iff {action : Logical.StashAction} {symbols : SymbolTable} :
    (∃ record, mapValueStruct action symbols = .ok record) ↔
      ∀ name ∈ action.valueVariables, ∃ type, symbols.scalarType? name = some type := by
  have hsources : (action.valueVariables.map fun name => (name, name)).map Prod.snd =
      action.valueVariables := by
    simp [Function.comp_def]
  rw [← hsources, ← exists_schemaFields_iff action.mapName]
  constructor
  · rintro ⟨record, hrecord⟩
    obtain ⟨fields, hfields, -⟩ := exists_ok_of_map_ok hrecord
    exact ⟨fields, hfields⟩
  · rintro ⟨fields, hfields⟩
    exact ⟨_, congrArg (Except.map _) hfields⟩

def eventAssignments (columns fields : List String) (action : Logical.OutputAction) :
    List FieldAssignment :=
  columns.map (fun column => ⟨column, column⟩) ++
    (fields.zip action.valueVariables).map fun (field, source) => ⟨field, source⟩

section EventAssignments

variable {columns fields : List String} {action : Logical.OutputAction}
  (h : action.valueVariables.length = fields.length)

include h

theorem fieldNames_eventAssignments :
    (eventAssignments columns fields action).map (·.fieldName) = columns ++ fields := by
  rw [eventAssignments, List.map_append, List.map_map, List.map_map]
  exact congrArg₂ (· ++ ·) (List.map_id columns) (List.map_fst_zip (Nat.le_of_eq h.symm))

theorem variableNames_eventAssignments :
    (eventAssignments columns fields action).map (·.variableName) =
      columns ++ action.valueVariables := by
  rw [eventAssignments, List.map_append, List.map_map, List.map_map]
  exact congrArg₂ (· ++ ·) (List.map_id columns) (List.map_snd_zip (Nat.le_of_eq h))

end EventAssignments

theorem outputStruct_ok_iff {action : Logical.OutputAction} {fields columns : List String}
    {symbols : SymbolTable} {event : Struct} :
    outputStruct action fields columns symbols = .ok event ↔
      action.valueVariables.length = fields.length ∧
        event.name = structTypeName action.outputName ∧
        List.Forall₂ (FieldOf symbols) (eventAssignments columns fields action)
          event.fields := by
  have hcolumns : eventAssignments columns fields action =
      (columns.map (fun column => (column, column)) ++ fields.zip action.valueVariables).map
        fun (field, source) => ⟨field, source⟩ := by
    simp [eventAssignments]
  rw [hcolumns, ← schemaFields_ok_iff action.outputName]
  by_cases hlength : action.valueVariables.length = fields.length
  · constructor
    · intro h
      simp only [outputStruct, hlength, ne_eq, not_true_eq_false, if_false] at h
      obtain ⟨fields, hfields, rfl⟩ := exists_ok_of_map_ok h
      exact ⟨hlength, rfl, hfields⟩
    · obtain ⟨name, fields⟩ := event
      rintro ⟨-, rfl, hfields⟩
      simp [outputStruct, hlength, hfields, Except.map]
  · simp [outputStruct, hlength]

theorem exists_outputStruct_iff {action : Logical.OutputAction} {fields columns : List String}
    {symbols : SymbolTable} :
    (∃ event, outputStruct action fields columns symbols = .ok event) ↔
      action.valueVariables.length = fields.length ∧
        ∀ name ∈ columns ++ action.valueVariables,
          ∃ type, symbols.scalarType? name = some type := by
  by_cases hlength : action.valueVariables.length = fields.length
  · have hsources : (columns.map (fun column => (column, column)) ++
        fields.zip action.valueVariables).map Prod.snd = columns ++ action.valueVariables := by
      simp [Function.comp_def, List.map_snd_zip, hlength]
    rw [← hsources, ← exists_schemaFields_iff action.outputName,
      and_iff_right hlength]
    simp only [outputStruct, hlength, ne_eq, not_true_eq_false, if_false]
    constructor
    · rintro ⟨event, hevent⟩
      obtain ⟨fields, hfields, -⟩ := exists_ok_of_map_ok hevent
      exact ⟨fields, hfields⟩
    · rintro ⟨fields, hfields⟩
      exact ⟨_, congrArg (Except.map _) hfields⟩
  · simp [outputStruct, hlength]

theorem stashRecord_ok_iff {action : Logical.StashAction} {index : Nat} {decl : MapDecl}
    {record : Struct} :
    stashRecord action b = .ok (index, decl, record) ↔
      b.workspace.map? action.mapName = .ok (index, decl) ∧
        mapValueStruct action b.scope.symbols = .ok record ∧
        (decl.valueStruct = none ∨ decl.valueStruct = some record.name) := by
  constructor
  · intro h
    obtain ⟨hmap, hrecord⟩ := stashRecord_ok h
    refine ⟨hmap, hrecord, ?_⟩
    cases hvalue : decl.valueStruct with
    | none => exact .inl rfl
    | some existing =>
        by_cases hname : existing = record.name
        · exact .inr (congrArg some hname)
        · simp [stashRecord, hmap, hrecord, hvalue, hname] at h
  · rintro ⟨hmap, hrecord, hfree⟩
    rcases hfree with hnone | hsame
    · simp [stashRecord, hmap, hrecord, hnone]
    · simp [stashRecord, hmap, hrecord, hsame]

theorem outputRecord_ok_iff {language : Language} {action : Logical.OutputAction}
    {index : Nat} {buffer : PerfBuffer} {event : Struct} :
    outputRecord language action b = .ok (index, buffer, event) ↔
      b.workspace.output? action.outputName = .ok (index, buffer) ∧
        outputStruct action buffer.fields (implicitColumns language) b.scope.symbols =
          .ok event ∧
        (buffer.structType = "" ∨ buffer.structType = event.name) := by
  constructor
  · intro h
    obtain ⟨hbuffer, hevent⟩ := outputRecord_ok h
    refine ⟨hbuffer, hevent, ?_⟩
    by_contra hconflict
    simp [outputRecord, hbuffer, hevent, not_or.mp hconflict] at h
  · rintro ⟨hbuffer, hevent, hfree⟩
    rcases hfree with hnone | hsame
    · simp [outputRecord, hbuffer, hevent, hnone]
    · simp [outputRecord, hbuffer, hevent, hsame]

end Build

/-! ## Runs of record actions -/

namespace Scope

variable {s t : Scope}

theorem Declares.contains_iff {block : List Variable} (h : s.Declares t block)
    {name : String} :
    t.symbols.contains name ↔ s.symbols.contains name ∨ name ∈ block.map Variable.name := by
  simp [SymbolTable.contains_iff, h.symbols, Function.comp_def]

theorem exists_declares_singleton_iff {v : Variable} :
    (∃ t, s.Declares t [v]) ↔ s.symbols.contains v.name = false := by
  simp [exists_declares_iff]

end Scope

namespace Plan

theorem runFrom_step_ok {plan : Plan} {b c : Build} :
    plan.step.runFrom b = (.ok (), c) ↔
      ∃ effect, plan b = .ok effect ∧ effect.declare.runFrom b.scope = (.ok (), c.scope) ∧
        c.workspace = RecordWrite.applyAll effect.write?.toList b.workspace := by
  obtain ⟨workspace, scope⟩ := c
  rw [runFrom_step]
  cases plan b with
  | error e => simp
  | ok effect =>
      simp only [Effect.runFrom_perform, Prod.mk.injEq, Build.mk.injEq, Except.ok.injEq,
        exists_eq_left']
      constructor
      · rintro ⟨hdeclare, rfl, rfl⟩
        exact ⟨Prod.ext hdeclare rfl, rfl⟩
      · rintro ⟨hdeclare, rfl⟩
        simp [hdeclare]

theorem declareStash_ok_iff {action : Logical.StashAction} {record : Struct} {s t : Scope} :
    (declareStash action record).runFrom s = (.ok (), t) ↔
      ∃ u, s.Declares u [.struct ⟨Build.valueVariableName action.mapName, record.name,
          Build.stashAssignments action⟩] ∧
        u.symbols.contains action.key.variableName ∧
        t = { u with probe := { u.probe with
          stashes := u.probe.stashes ++ [action.lowered] } } := by
  unfold declareStash
  rw [Step.runFrom_bind_ok]
  constructor
  · rintro ⟨_, u, hadd, h⟩
    obtain ⟨key, _, hkey, h⟩ := Step.runFrom_bind_ok.mp h
    obtain ⟨hcontains, rfl, rfl⟩ := Scope.runFrom_keyVariable_ok.mp hkey
    cases h
    exact ⟨u, Scope.runFrom_addVariable_ok_iff.mp hadd, hcontains, rfl⟩
  · rintro ⟨u, hdeclares, hcontains, rfl⟩
    refine ⟨(), u, Scope.runFrom_addVariable_ok_iff.mpr hdeclares, ?_⟩
    exact Step.runFrom_bind_ok.mpr
      ⟨_, u, Scope.runFrom_keyVariable_ok.mpr ⟨hcontains, rfl, rfl⟩, rfl⟩

theorem declareOutput_ok_iff {language : Language} {action : Logical.OutputAction}
    {event : Struct} {s t : Scope} :
    (declareOutput language action event).runFrom s = (.ok (), t) ↔
      ∃ u, s.Declares u [.struct ⟨Build.valueVariableName action.outputName, event.name,
          Build.outputAssignments (implicitColumns language) action event⟩] ∧
        t = { u with probe := { u.probe with
          outputs := u.probe.outputs ++ [action.lowered] } } := by
  unfold declareOutput
  rw [Step.runFrom_bind_ok]
  constructor
  · rintro ⟨_, u, hadd, h⟩
    cases h
    exact ⟨u, Scope.runFrom_addVariable_ok_iff.mp hadd, rfl⟩
  · rintro ⟨u, hdeclares, rfl⟩
    exact ⟨(), u, Scope.runFrom_addVariable_ok_iff.mpr hdeclares, rfl⟩

end Plan

namespace Build

variable {b c : Build}

theorem stash_ok_iff {action : Logical.StashAction} :
    (stash action).runFrom b = (.ok (), c) ↔
      ∃ index decl record, stashRecord action b = .ok (index, decl, record) ∧
        (Plan.declareStash action record).runFrom b.scope = (.ok (), c.scope) ∧
        c.workspace = writeMap index decl record b.workspace := by
  change ((RecordAction.stash action).step .unknown).runFrom b = _ ↔ _
  rw [← Plan.step_write, Plan.runFrom_step_ok]
  constructor
  · rintro ⟨effect, heffect, hdeclare, hworkspace⟩
    obtain ⟨⟨index, decl, record⟩, hrecord, rfl⟩ := exists_ok_of_map_ok heffect
    exact ⟨index, decl, record, hrecord, hdeclare, hworkspace⟩
  · rintro ⟨index, decl, record, hrecord, hdeclare, hworkspace⟩
    exact ⟨_, congrArg (Except.map _) hrecord, hdeclare, hworkspace⟩

theorem output_ok_iff {language : Language} {action : Logical.OutputAction} :
    (output language action).runFrom b = (.ok (), c) ↔
      ∃ index buffer event, outputRecord language action b = .ok (index, buffer, event) ∧
        (Plan.declareOutput language action event).runFrom b.scope = (.ok (), c.scope) ∧
        c.workspace = writeBuffer index buffer event b.workspace := by
  change ((RecordAction.output action).step language).runFrom b = _ ↔ _
  rw [← Plan.step_write, Plan.runFrom_step_ok]
  constructor
  · rintro ⟨effect, heffect, hdeclare, hworkspace⟩
    obtain ⟨⟨index, buffer, event⟩, hevent, rfl⟩ := exists_ok_of_map_ok heffect
    exact ⟨index, buffer, event, hevent, hdeclare, hworkspace⟩
  · rintro ⟨index, buffer, event, hevent, hdeclare, hworkspace⟩
    exact ⟨_, congrArg (Except.map _) hevent, hdeclare, hworkspace⟩

theorem exists_declareStash_iff {action : Logical.StashAction} (record : Struct) {s : Scope} :
    (∃ t, (Plan.declareStash action record).runFrom s = (.ok (), t)) ↔
      s.symbols.contains (valueVariableName action.mapName) = false ∧
        s.symbols.contains action.key.variableName := by
  have hkey : action.key.variableName ≠ valueVariableName action.mapName := by
    intro heq
    have hreserved := action.key.variableName_mem_reservedNames
    rw [heq] at hreserved
    exact append_not_mem_reservedNames (by simp) hreserved
  simp only [Plan.declareStash_ok_iff]
  constructor
  · rintro ⟨_, u, hdeclares, hcontains, -⟩
    refine ⟨Scope.exists_declares_singleton_iff.mp ⟨u, hdeclares⟩, ?_⟩
    simpa [hdeclares.contains_iff, Variable.name, hkey] using hcontains
  · rintro ⟨hfresh, hcontains⟩
    obtain ⟨u, hdeclares⟩ := (Scope.exists_declares_singleton_iff (v := .struct
      ⟨valueVariableName action.mapName, record.name, stashAssignments action⟩)).mpr hfresh
    exact ⟨_, u, hdeclares, hdeclares.contains_iff.mpr (.inl hcontains), rfl⟩

theorem exists_declareOutput_iff (language : Language) {action : Logical.OutputAction}
    (event : Struct) {s : Scope} :
    (∃ t, (Plan.declareOutput language action event).runFrom s = (.ok (), t)) ↔
      s.symbols.contains (valueVariableName action.outputName) = false := by
  simp only [Plan.declareOutput_ok_iff]
  constructor
  · rintro ⟨_, u, hdeclares, -⟩
    exact Scope.exists_declares_singleton_iff.mp ⟨u, hdeclares⟩
  · intro hfresh
    obtain ⟨u, hdeclares⟩ := (Scope.exists_declares_singleton_iff (v := .struct
      ⟨valueVariableName action.outputName, event.name,
        outputAssignments (implicitColumns language) action event⟩)).mpr hfresh
    exact ⟨_, u, hdeclares, rfl⟩

end Build

/-! ## Outcomes -/

namespace Logical

/-- What a stash needs of the state that it is made in. -/
structure StashAction.Possible (action : StashAction) (input : Program) (b : Build) :
    Prop where
  declared : action.mapName ∈ input.maps.map MapDecl.name
  scalars : ∀ name ∈ action.valueVariables,
    ∃ type, b.scope.symbols.scalarType? name = some type
  /-- The map has no record yet, or the one that is named after it. -/
  agrees : ∀ decl, b.workspace.program.maps.findRev? (·.name == action.mapName) = some decl →
    decl.valueStruct = none ∨ decl.valueStruct = some (structTypeName action.mapName)
  fresh : b.scope.symbols.contains (Build.valueVariableName action.mapName) = false
  keyed : b.scope.symbols.contains action.key.variableName

structure OutputAction.Possible (action : OutputAction) (input : Program) (b : Build) :
    Prop where
  /-- The output is declared, and it has a field for each variable. -/
  sends : input.Sends action
  scalars : ∀ name ∈ action.valueVariables,
    ∃ type, b.scope.symbols.scalarType? name = some type
  fresh : b.scope.symbols.contains (Build.valueVariableName action.outputName) = false

end Logical

/--
From `b` to `c` the record of `owner` is registered, which has one field for each of the
`assignments`, and the name of the record variable is declared.
-/
structure Build.Registers (b c : Build) (owner : String) (assignments : List FieldAssignment)
    (record : Struct) : Prop where
  name : record.name = structTypeName owner
  fields : List.Forall₂ (FieldOf b.scope.symbols) assignments record.fields
  registered : c.workspace.program.findStruct? (structTypeName owner) = some record
  symbols : c.scope.symbols.entries =
    b.scope.symbols.entries ++ [(valueVariableName owner, .aggregate)]

structure Build.Stashed (b c : Build) (action : Logical.StashAction) (record : Struct) :
    Prop extends b.Registers c action.mapName
      (action.valueVariables.map fun name => ⟨name, name⟩) record where
  map : c.workspace.program.maps.findRev? (·.name == action.mapName) =
    some (.stashed action.mapName)
  workspace : ∃ index decl, b.workspace.map? action.mapName = .ok (index, decl) ∧
    c.workspace = (b.workspace.setMap index (.stashed action.mapName)).registerStruct record
  probe : c.scope.probe = { b.scope.probe with
    vars := b.scope.probe.vars ++ [.struct ⟨valueVariableName action.mapName,
      structTypeName action.mapName, action.valueVariables.map fun name => ⟨name, name⟩⟩]
    stashes := b.scope.probe.stashes ++ [⟨action.mapName, action.key.variableName,
      valueVariableName action.mapName, action.cond⟩] }

structure Build.Sent (b c : Build) (action : Logical.OutputAction)
    (columns names : List String) (event : Struct) :
    Prop extends b.Registers c action.outputName (eventAssignments columns names action)
      event where
  fieldNames : event.fields.map (·.name) = columns ++ names
  workspace : c.workspace = b.workspace.registerStruct event
  probe : c.scope.probe = { b.scope.probe with
    vars := b.scope.probe.vars ++ [.struct ⟨valueVariableName action.outputName,
      structTypeName action.outputName, eventAssignments columns names action⟩]
    outputs := b.scope.probe.outputs ++
      [⟨action.outputName, valueVariableName action.outputName⟩] }

namespace Workspace.Reaches

variable {facts : Facts} {target : Target} {input : Logical.Program} {lowered : List Part}
  {setting : Setting} {part : Part} {b : Build}

theorem exists_stash_iff (h : Reaches facts target input lowered setting part b)
    (action : Logical.StashAction) :
    (∃ c, (Build.stash action).runFrom b = (.ok (), c)) ↔ action.Possible input b := by
  have hdeclared := h.declared
  constructor
  · rintro ⟨c, hrun⟩
    obtain ⟨index, decl, record, hrecord, hdeclare, -⟩ := Build.stash_ok_iff.mp hrun
    obtain ⟨hmap, hschema, hagrees⟩ := Build.stashRecord_ok_iff.mp hrecord
    obtain ⟨hfresh, hkeyed⟩ := (Build.exists_declareStash_iff record).mp ⟨_, hdeclare⟩
    have hlast := hdeclared.resolves.map?_iff.mp ⟨index, hmap⟩
    refine ⟨hdeclared.exists_map?_iff.mp ⟨decl, hlast⟩,
      Build.exists_mapValueStruct_iff.mp ⟨record, hschema⟩, ?_, hfresh, hkeyed⟩
    intro last hlast'
    obtain rfl := Option.some.inj (hlast.symm.trans hlast')
    rwa [name_of_mapValueStruct hschema] at hagrees
  · intro hpossible
    obtain ⟨decl, hlast⟩ := hdeclared.exists_map?_iff.mpr hpossible.declared
    obtain ⟨index, hmap⟩ := hdeclared.resolves.map?_iff.mpr hlast
    obtain ⟨record, hschema⟩ := Build.exists_mapValueStruct_iff.mpr hpossible.scalars
    have hagrees := hpossible.agrees decl hlast
    rw [← name_of_mapValueStruct hschema] at hagrees
    have hrecord := Build.stashRecord_ok_iff.mpr ⟨hmap, hschema, hagrees⟩
    obtain ⟨t, hdeclare⟩ := (Build.exists_declareStash_iff record).mpr
      ⟨hpossible.fresh, hpossible.keyed⟩
    exact ⟨⟨Build.writeMap index decl record b.workspace, t⟩,
      Build.stash_ok_iff.mpr ⟨index, decl, record, hrecord, hdeclare, rfl⟩⟩

theorem exists_output_iff (h : Reaches facts target input lowered setting part b)
    (hpart : part ≠ .special) (action : Logical.OutputAction) :
    (∃ c, (Build.output input.language action).runFrom b = (.ok (), c)) ↔
      action.Possible input b := by
  have hdeclared := h.declared
  constructor
  · rintro ⟨c, hrun⟩
    obtain ⟨index, buffer, event, hevent, hdeclare, -⟩ := Build.output_ok_iff.mp hrun
    obtain ⟨hbuffer, hschema, -⟩ := Build.outputRecord_ok_iff.mp hevent
    obtain ⟨output, houtput, rfl⟩ := hdeclared.output?_iff.mp ⟨index, hbuffer⟩
    obtain ⟨hlength, hscalars⟩ := Build.exists_outputStruct_iff.mp ⟨event, hschema⟩
    exact ⟨⟨output, houtput, hlength⟩,
      fun name hname => hscalars name (List.mem_append_right _ hname),
      (Build.exists_declareOutput_iff input.language event).mp ⟨_, hdeclare⟩⟩
  · intro hpossible
    obtain ⟨output, houtput, hlength⟩ := hpossible.sends
    obtain ⟨index, hbuffer⟩ := hdeclared.output?_iff.mpr ⟨output, houtput, rfl⟩
    have hscalars : ∀ name ∈ implicitColumns input.language ++ action.valueVariables,
        ∃ type, b.scope.symbols.scalarType? name = some type := by
      intro name hname
      rcases List.mem_append.mp hname with hcolumn | hname
      · exact h.exists_column hpart hcolumn
      · exact hpossible.scalars name hname
    obtain ⟨event, hschema⟩ := Build.exists_outputStruct_iff.mpr ⟨hlength, hscalars⟩
    -- The output has had the type of its record since it was declared.
    have htype : output.buffer.structType = event.name := by
      rw [name_of_outputStruct hschema, ← key_of_findRev? houtput]
      rfl
    have hevent := Build.outputRecord_ok_iff.mpr ⟨hbuffer, hschema, .inr htype⟩
    obtain ⟨t, hdeclare⟩ :=
      (Build.exists_declareOutput_iff input.language event).mpr hpossible.fresh
    exact ⟨⟨Build.writeBuffer index output.buffer event b.workspace, t⟩,
      Build.output_ok_iff.mpr ⟨index, output.buffer, event, hevent, hdeclare, rfl⟩⟩

theorem exists_stashed (h : Reaches facts target input lowered setting part b)
    {action : Logical.StashAction} {c : Build}
    (hrun : (Build.stash action).runFrom b = (.ok (), c)) :
    ∃ record, b.Stashed c action record := by
  have hdeclared := h.declared
  obtain ⟨index, decl, record, hrecord, hdeclare, hworkspace⟩ := Build.stash_ok_iff.mp hrun
  obtain ⟨hmap, hschema, -⟩ := Build.stashRecord_ok_iff.mp hrecord
  obtain ⟨hname, hfields⟩ := Build.mapValueStruct_ok_iff.mp hschema
  obtain ⟨u, hvariable, -, hscope⟩ := Plan.declareStash_ok_iff.mp hdeclare
  have hfits : RecordWrite.Fits b.workspace (.stash action) (.map index decl record) :=
    .map hmap hname
  have htyped : { decl with keyType := some .uint64, valueStruct := some record.name } =
      MapDecl.stashed action.mapName := hdeclared.located.typedMap?_eq hfits rfl
  have hwrite : c.workspace = (RecordWrite.map index decl record).apply b.workspace :=
    hworkspace
  refine ⟨record, ⟨hname, hfields, ?_, ?_⟩, ?_, ⟨index, decl, hmap, ?_⟩, ?_⟩
  · rw [hwrite, ← hname]
    exact hdeclared.findStruct?_apply _
  · rw [hscope]
    exact hvariable.symbols
  · rw [hwrite]
    refine (hdeclared.apply hfits).resolves.map?_iff.mp ⟨index, ?_⟩
    rw [hdeclared.located.map?_apply hfits, ← htyped]
    exact if_pos rfl
  · rw [hworkspace, Build.writeMap, htyped]
  · rw [hscope, hvariable.probe, hname]
    rfl

theorem exists_sent (h : Reaches facts target input lowered setting part b)
    {action : Logical.OutputAction} {c : Build}
    (hrun : (Build.output input.language action).runFrom b = (.ok (), c)) :
    ∃ output event, input.outputs.findRev? (·.name == action.outputName) = some output ∧
      b.Sent c action (implicitColumns input.language) output.fields event := by
  have hdeclared := h.declared
  obtain ⟨index, buffer, event, hevent, hdeclare, hworkspace⟩ := Build.output_ok_iff.mp hrun
  obtain ⟨hbuffer, hschema, -⟩ := Build.outputRecord_ok_iff.mp hevent
  obtain ⟨output, houtput, rfl⟩ := hdeclared.output?_iff.mp ⟨index, hbuffer⟩
  obtain ⟨hlength, hname, hfields⟩ := Build.outputStruct_ok_iff.mp hschema
  obtain ⟨u, hvariable, hscope⟩ := Plan.declareOutput_ok_iff.mp hdeclare
  have hassigned : Build.outputAssignments (implicitColumns input.language) action event =
      Build.eventAssignments (implicitColumns input.language) output.buffer.fields action := by
    rw [Build.outputAssignments, ← Build.variableNames_eventAssignments hlength]
    exact zip_of_fieldOf hfields
  have htyped : { output.buffer with structType := event.name } = output.buffer := by
    rw [hname, ← key_of_findRev? houtput]
    rfl
  have hwrite : c.workspace =
      (RecordWrite.output index output.buffer event).apply b.workspace := hworkspace
  refine ⟨output, event, houtput, ⟨hname, hfields, ?_, ?_⟩, ?_, ?_, ?_⟩
  · rw [hwrite, ← hname]
    exact hdeclared.findStruct?_apply _
  · rw [hscope]
    exact hvariable.symbols
  · rw [names_of_fieldOf hfields, Build.fieldNames_eventAssignments hlength]
    rfl
  · rw [hworkspace, Build.writeBuffer, htyped, setOutput_of_output? hbuffer]
  · rw [hscope, hvariable.probe, hname, hassigned]
    rfl

end Workspace.Reaches

theorem Workspace.nodup_owners_of_lowerProbe {facts : Facts} {language : Language}
    {input : Logical.Probe} {w v : Workspace} {probe : Physical.Probe}
    (h : w.lowerProbe facts language input = (.ok probe, v)) :
    (input.recordActions.map RecordAction.owner).Nodup := by
  have hmirrors := mirrors_of_lowerProbe h
  obtain ⟨args, results, reads, hblocks⟩ := hmirrors.vars
  have hdistinct := hmirrors.distinct
  rw [hblocks.eq_append, List.map_append, List.map_map] at hdistinct
  refine List.Nodup.of_map Build.valueVariableName ?_
  rw [List.map_map]
  exact (List.nodup_append.mp hdistinct).2.1

/--
What a stash needs and does in any state that lowering reaches.  In no probe can two stashes
be made to one map.
-/
theorem stash_outcome (facts : Facts) (target : Target) (input : Logical.Program) :
    (∀ lowered setting part b,
      Workspace.Reaches facts target input lowered setting part b →
      ∀ action : Logical.StashAction,
        ((∃ c, (Build.stash action).runFrom b = (.ok (), c)) ↔ action.Possible input b) ∧
        ∀ c, (Build.stash action).runFrom b = (.ok (), c) →
          ∃ record, b.Stashed c action record) ∧
    ∀ probe : Logical.Probe, ¬ (probe.stashes.map (·.mapName)).Nodup →
      ∀ (w : Workspace) (physical : Physical.Probe) (v : Workspace),
        w.lowerProbe facts input.language probe ≠ (.ok physical, v) := by
  refine ⟨fun lowered setting part b hb action => ?_, fun probe htwice w physical v h => ?_⟩
  · exact ⟨hb.exists_stash_iff action, fun c hrun => hb.exists_stashed hrun⟩
  · have howners := Workspace.nodup_owners_of_lowerProbe h
    rw [Logical.Probe.recordActions, List.map_append, List.map_map] at howners
    exact htwice (List.nodup_append.mp howners).1

/--
What an event needs and does in any state that lowering reaches once the special variables
are declared, which the implicit columns are.
-/
theorem output_outcome {facts : Facts} {target : Target} {input : Logical.Program}
    {lowered : List Part} {setting : Setting} {part : Part} {b : Build}
    (h : Workspace.Reaches facts target input lowered setting part b)
    (hpart : part ≠ .special) (action : Logical.OutputAction) :
    ((∃ c, (Build.output input.language action).runFrom b = (.ok (), c)) ↔
      action.Possible input b) ∧
    ∀ c, (Build.output input.language action).runFrom b = (.ok (), c) →
      ∃ output event, input.outputs.findRev? (·.name == action.outputName) = some output ∧
        b.Sent c action (implicitColumns input.language) output.fields event :=
  ⟨h.exists_output_iff hpart action, fun _ hrun => h.exists_sent hrun⟩

def restashingEntry : Logical.Probe := { callEntry with
  stashes := callEntry.stashes ++ callEntry.stashes }

theorem stash_outcome_callInput :
    (∃ lowered setting action b c record,
      Workspace.Reaches callFacts callTracing.target callInput lowered setting (.stash action)
        b ∧
      action.Possible callInput b ∧
      (Build.stash action).runFrom b = (.ok (), c) ∧
      b.Stashed c action record ∧
      record.fields.map (·.name) = ["time_", "id"]) ∧
    ∀ (w : Workspace) (physical : Physical.Probe) (v : Workspace),
      w.lowerProbe callFacts .go restashingEntry ≠ (.ok physical, v) := by
  obtain ⟨input, u, hinput, hrun, -⟩ := lowerDeployment_ok.mp lowerDeployment_callTracing
  cases hinput
  obtain ⟨hoccurs, htwice⟩ := stash_outcome callFacts callTracing.target callInput
  refine ⟨?_, htwice restashingEntry (by decide)⟩
  obtain ⟨setting, b, c, hb, hstash⟩ := Workspace.exists_reaches hrun
    (show callInput.probes = [] ++ callEntry :: [callReturn] from rfl)
    (show callEntry.parts = [.special, .argument ⟨"id", "req.id"⟩] ++ .stash
      { mapName := "calls", key := .goid, valueVariables := ["time_", "id"] } ::
        [.printks []] from rfl)
  obtain ⟨hpossible, hstashed⟩ := hoccurs _ setting _ b hb
    { mapName := "calls", key := .goid, valueVariables := ["time_", "id"] }
  obtain ⟨record, hrecord⟩ := hstashed c hstash
  exact ⟨_, setting, _, b, c, record, hb, hpossible.mp ⟨c, hstash⟩, hstash, hrecord,
    names_of_fieldOf hrecord.fields⟩

theorem output_outcome_callInput :
    ∃ lowered setting action b c event,
      Workspace.Reaches callFacts callTracing.target callInput lowered setting (.output action)
        b ∧
      action.Possible callInput b ∧
      (Build.output .go action).runFrom b = (.ok (), c) ∧
      b.Sent c action (implicitColumns .go) ["id", "status", "nanos"] event ∧
      event.fields.map (·.name) =
        ["tgid_", "tgid_start_time_", "time_", "goid_", "id", "status", "nanos"] := by
  obtain ⟨input, u, hinput, hrun, -⟩ := lowerDeployment_ok.mp lowerDeployment_callTracing
  cases hinput
  obtain ⟨setting, b, c, hb, hsent⟩ := Workspace.exists_reaches hrun
    (show callInput.probes = [callEntry] ++ callReturn :: [] from rfl)
    (show callReturn.parts = [.special, .argument ⟨"id", "req.id"⟩,
      .returnValue ⟨"status", "$0"⟩, .read ⟨"calls", .goid, ["start_ktime_ns", "entry_id"]⟩,
      .latency ⟨"nanos"⟩, .delete ⟨"calls", .goid⟩] ++
        .output ⟨"events", ["id", "status", "nanos"]⟩ :: [.printks []] from rfl)
  obtain ⟨hpossible, houtcome⟩ := output_outcome hb (by simp)
    ⟨"events", ["id", "status", "nanos"]⟩
  have hrun : (Build.output .go ⟨"events", ["id", "status", "nanos"]⟩).runFrom b =
      (.ok (), c) := by
    rw [← show setting.language = .go from hb.language_eq]
    exact hsent
  obtain ⟨output, event, houtput, hevent⟩ := houtcome c hrun
  cases houtput
  exact ⟨_, setting, _, b, c, event, hb, hpossible.mp ⟨c, hrun⟩, hrun, hevent,
    hevent.fieldNames⟩

end ProbeLowering
