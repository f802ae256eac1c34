import ProbeLowering.Lowering.Action
import ProbeLowering.Proofs.Scope

/-!
# Actions as a check and a write

An action first finds out what it is about to write, which may fail and changes
nothing, and then writes it.  The checks are functions here (`readLayout`,
`stashRecord`, `outputRecord`), so that each action is one query followed by its
write.  From this come the growth of the scope, which also failing actions
respect, and what a successful action did to the scope and to the workspace.
-/

namespace ProbeLowering

open Physical (Variable Struct StructField PerfBuffer)

namespace Build

variable {α β : Type}

@[simp] theorem runFrom_onScope (step : Step Scope α) (b : Build) :
    (onScope step).runFrom b =
      ((step.runFrom b.scope).1, { b with scope := (step.runFrom b.scope).2 }) :=
  rfl

theorem runFrom_onScope_ok {step : Step Scope α} {b c : Build} {a : α} :
    (onScope step).runFrom b = (.ok a, c) ↔
      step.runFrom b.scope = (.ok a, c.scope) ∧ c.workspace = b.workspace := by
  obtain ⟨workspace, scope⟩ := c
  cases hstep : step.runFrom b.scope with
  | mk outcome next =>
      simp only [runFrom_onScope, hstep, Prod.mk.injEq, Build.mk.injEq]
      constructor
      · rintro ⟨rfl, rfl, rfl⟩
        exact ⟨⟨rfl, rfl⟩, rfl⟩
      · rintro ⟨⟨rfl, rfl⟩, rfl⟩
        exact ⟨rfl, rfl, rfl⟩

theorem onScope_bind (step : Step Scope α) (next : α → Step Scope β) :
    onScope (step >>= next) = onScope step >>= fun a => onScope (next a) := by
  funext b
  change (onScope (step >>= next)).runFrom b =
    Step.runFrom (onScope step >>= fun a => onScope (next a)) b
  simp only [runFrom_onScope, Step.runFrom_bind]
  cases step.runFrom b.scope with
  | mk outcome scope => cases outcome <;> rfl

theorem onScope_sequence (steps : List (Step Scope Unit)) :
    onScope (Step.sequence steps) = Step.sequence (steps.map onScope) := by
  induction steps with
  | nil => rfl
  | cons step rest ih =>
      rw [Step.sequence, onScope_bind, ih]
      rfl

def Extends (P : Variable → Prop) (b c : Build) : Prop :=
  b.scope.Extends P c.scope

variable {P : Variable → Prop}

instance : IsPreorder Build (Extends P) where
  refl b := refl_of (Scope.Extends P) b.scope
  trans _ _ _ := trans_of (Scope.Extends P)

theorem keeps_onScope {step : Step Scope α}
    (h : Step.Keeps (Scope.Extends P) step) : Step.Keeps (Extends P) (onScope step) :=
  fun b => h b.scope

theorem keeps_onWorkspace (f : Workspace → Workspace) :
    Step.Keeps (Extends P) (onWorkspace f) :=
  fun b => refl_of (Scope.Extends P) b.scope

theorem keeps_changeProbe {f : Physical.Probe → Physical.Probe}
    (h : ∀ probe, (f probe).vars = probe.vars) :
    Step.Keeps (Extends P) (changeProbe f) := by
  refine keeps_onScope fun scope => ?_
  constructor
  · exact ⟨[], by simp [h]⟩
  · intro hscope
    simpa [Scope.Consistent, h] using hscope

/-! ## Map reads -/

def readLayout (value : Logical.MapValue) (b : Build) : Except LowerError Struct :=
  match b.workspace.map? value.mapName with
  | .error e => .error e
  | .ok _ =>
      match b.workspace.struct? (structTypeName value.mapName) with
      | .error e => .error e
      | .ok layout =>
          if layout.fields.length < value.valueIds.length then
            .error (.mapValueCountMismatch value.mapName value.valueIds.length
              layout.fields.length)
          else .ok layout

def unpack (value : Logical.MapValue) (layout : Struct) : Step Scope Unit := do
  let key ← Scope.keyVariable value.key
  Scope.addVariable (.map ⟨mapHandleName value.mapName,
    structTypeName value.mapName, value.mapName, key⟩)
  addMembers (mapHandleName value.mapName) (value.valueIds.zip layout.fields)

theorem readMap_eq (value : Logical.MapValue) :
    readMap value =
      (do
        let layout ← .query (readLayout value)
        onScope (unpack value layout)) := by
  funext b
  change (readMap value).runFrom b = Step.runFrom (_ >>= _) b
  unfold readMap readLayout
  simp only [Step.runFrom_bind, Step.runFrom_query]
  cases b.workspace.map? value.mapName with
  | error e => rfl
  | ok map =>
      simp only
      cases b.workspace.struct? (structTypeName value.mapName) with
      | error e => rfl
      | ok layout =>
          simp only
          split
          · rfl
          · rfl

theorem keeps_readMap (hmap : ∀ x, P (.map x)) (hmember : ∀ x, P (.member x))
    (value : Logical.MapValue) : Step.Keeps (Extends P) (readMap value) := by
  rw [readMap_eq]
  refine (Step.Keeps.query _).bind fun layout => keeps_onScope ?_
  refine (Scope.keeps_keyVariable _).bind fun key => ?_
  exact (Scope.keeps_addVariable (hmap _)).bind fun _ =>
    .forM fun _ => Scope.keeps_addVariable (hmember _)

def readVariables (value : Logical.MapValue) (layout : Struct) : List Variable :=
  .map ⟨mapHandleName value.mapName, structTypeName value.mapName, value.mapName,
      value.key.variableName⟩ ::
    (value.valueIds.zip layout.fields).map fun (id, field) =>
      .member ⟨id, field.type, mapHandleName value.mapName, true, field.name⟩

theorem field_of_member {value : Logical.MapValue} {layout : Struct}
    {x : Physical.MemberVariable} (h : .member x ∈ readVariables value layout) :
    x.structBase = mapHandleName value.mapName ∧
      ⟨x.field, x.type⟩ ∈ layout.fields := by
  rcases List.mem_cons.mp h with h | h
  · cases h
  · obtain ⟨⟨id, field⟩, hmem, hx⟩ := List.mem_map.mp h
    cases hx
    exact ⟨rfl, (List.of_mem_zip hmem).2⟩

theorem readLayout_ok {value : Logical.MapValue} {b : Build} {layout : Struct}
    (h : readLayout value b = .ok layout) :
    (∃ entry, b.workspace.map? value.mapName = .ok entry) ∧
      b.workspace.struct? (structTypeName value.mapName) = .ok layout ∧
      value.valueIds.length ≤ layout.fields.length := by
  unfold readLayout at h
  split at h
  next => contradiction
  next entry hentry =>
    split at h
    next => contradiction
    next found hfound =>
      split at h
      next => contradiction
      next hlength =>
        cases h
        exact ⟨⟨entry, hentry⟩, hfound, by omega⟩

theorem readMap_ok {value : Logical.MapValue} {b c : Build}
    (h : (readMap value).runFrom b = (.ok (), c)) :
    ∃ layout, readLayout value b = .ok layout ∧
      b.scope.symbols.contains value.key.variableName = true ∧
      c.workspace = b.workspace ∧
      c.scope.probe = { b.scope.probe with
        vars := b.scope.probe.vars ++ readVariables value layout } := by
  rw [readMap_eq] at h
  obtain ⟨layout, _, hlayout, h⟩ := Step.runFrom_bind_ok.mp h
  simp only [Step.runFrom_query, Prod.mk.injEq] at hlayout
  obtain ⟨hlayout, rfl⟩ := hlayout
  obtain ⟨hscope, hworkspace⟩ := runFrom_onScope_ok.mp h
  obtain ⟨key, _, hkey, hscope⟩ := Step.runFrom_bind_ok.mp hscope
  obtain ⟨hcontains, rfl, rfl⟩ := Scope.runFrom_keyVariable_ok.mp hkey
  obtain ⟨_, t, hhandle, hmembers⟩ := Step.runFrom_bind_ok.mp hscope
  refine ⟨layout, hlayout, hcontains, hworkspace, ?_⟩
  rw [Scope.probe_of_forM_addVariable hmembers, Scope.probe_of_addVariable hhandle]
  simp [readVariables]

/-! ## Stashes and deletes -/

def stashRecord (action : Logical.StashAction) (b : Build) :
    Except LowerError (Nat × MapDecl × Struct) :=
  match b.workspace.map? action.mapName with
  | .error e => .error e
  | .ok (index, map) =>
      match mapValueStruct action b.scope.symbols with
      | .error e => .error e
      | .ok record =>
          match map.valueStruct with
          | none => .ok (index, map, record)
          | some existing =>
              if existing ≠ record.name then
                .error (.structTypeConflict action.mapName existing record.name)
              else .ok (index, map, record)

def writeMap (index : Nat) (map : MapDecl) (record : Struct) (w : Workspace) :
    Workspace :=
  (w.setMap index
    { map with keyType := some .uint64, valueStruct := some record.name })
    |>.registerStruct record

def writeStash (action : Logical.StashAction) (index : Nat) (map : MapDecl)
    (record : Struct) : Step Build Unit := do
  onWorkspace (writeMap index map record)
  let key ← onScope do
    Scope.addVariable (.struct ⟨valueVariableName action.mapName, record.name,
      stashAssignments action⟩)
    Scope.keyVariable action.key
  changeProbe fun probe => { probe with
    stashes := probe.stashes ++ [⟨action.mapName, key,
      valueVariableName action.mapName, action.cond⟩] }

theorem stash_eq (action : Logical.StashAction) :
    stash action =
      (do
        let (index, map, record) ← .query (stashRecord action)
        writeStash action index map record) := by
  funext b
  change (stash action).runFrom b = Step.runFrom (_ >>= _) b
  unfold stash stashRecord
  simp only [Step.runFrom_bind, Step.runFrom_query]
  cases b.workspace.map? action.mapName with
  | error e => rfl
  | ok found =>
      obtain ⟨index, map⟩ := found
      simp only
      cases mapValueStruct action b.scope.symbols with
      | error e => rfl
      | ok record =>
          cases map.valueStruct with
          | none => rfl
          | some existing =>
              by_cases hname : existing = record.name
              · simp only [hname, ne_eq, not_true_eq_false, if_false]
                rfl
              · simp [hname]

theorem keeps_stash (hstruct : ∀ x, P (.struct x)) (action : Logical.StashAction) :
    Step.Keeps (Extends P) (stash action) := by
  rw [stash_eq]
  refine (Step.Keeps.query _).bind fun (index, map, record) => ?_
  refine (keeps_onWorkspace _).bind fun _ => ?_
  have hscope := (Scope.keeps_addVariable (hstruct ⟨valueVariableName action.mapName,
    record.name, stashAssignments action⟩)).bind
      fun _ => Scope.keeps_keyVariable action.key
  exact (keeps_onScope hscope).bind fun _ => keeps_changeProbe fun _ => rfl

theorem stashRecord_ok {action : Logical.StashAction} {b : Build} {index : Nat}
    {map : MapDecl} {record : Struct}
    (h : stashRecord action b = .ok (index, map, record)) :
    b.workspace.map? action.mapName = .ok (index, map) ∧
      mapValueStruct action b.scope.symbols = .ok record := by
  unfold stashRecord at h
  split at h
  next => contradiction
  next hmap =>
    split at h
    next => contradiction
    next hrecord =>
      split at h
      next =>
        cases h
        exact ⟨hmap, hrecord⟩
      next =>
        split at h
        next => contradiction
        next =>
          cases h
          exact ⟨hmap, hrecord⟩

theorem stash_ok {action : Logical.StashAction} {b c : Build}
    (h : (stash action).runFrom b = (.ok (), c)) :
    ∃ index map record, stashRecord action b = .ok (index, map, record) ∧
      c.scope.symbols.contains action.key.variableName = true ∧
      c.workspace = writeMap index map record b.workspace ∧
      c.scope.probe = { b.scope.probe with
        vars := b.scope.probe.vars ++ [.struct ⟨valueVariableName action.mapName,
          record.name, stashAssignments action⟩]
        stashes := b.scope.probe.stashes ++ [⟨action.mapName,
          action.key.variableName, valueVariableName action.mapName,
          action.cond⟩] } := by
  rw [stash_eq] at h
  obtain ⟨⟨index, map, record⟩, _, hrecord, h⟩ := Step.runFrom_bind_ok.mp h
  simp only [Step.runFrom_query, Prod.mk.injEq] at hrecord
  obtain ⟨hrecord, rfl⟩ := hrecord
  obtain ⟨_, _, hworkspace, h⟩ := Step.runFrom_bind_ok.mp h
  cases hworkspace
  obtain ⟨key, d, hscope, h⟩ := Step.runFrom_bind_ok.mp h
  cases h
  obtain ⟨hscope, hworkspace⟩ := runFrom_onScope_ok.mp hscope
  obtain ⟨_, t, hvariable, hkey⟩ := Step.runFrom_bind_ok.mp hscope
  obtain ⟨hcontains, rfl, rfl⟩ := Scope.runFrom_keyVariable_ok.mp hkey
  refine ⟨index, map, record, hrecord, hcontains, hworkspace, ?_⟩
  simp [Scope.probe_of_addVariable hvariable]

theorem keeps_delete (action : Logical.DeleteAction) :
    Step.Keeps (Extends P) (delete action) :=
  (Step.Keeps.query _).bind fun _ =>
    (keeps_onScope (Scope.keeps_keyVariable _)).bind fun _ =>
      keeps_changeProbe fun _ => rfl

theorem delete_ok {action : Logical.DeleteAction} {b c : Build}
    (h : (delete action).runFrom b = (.ok (), c)) :
    (∃ entry, b.workspace.map? action.mapName = .ok entry) ∧
      c.scope.symbols.contains action.key.variableName = true ∧
      c.workspace = b.workspace ∧
      c.scope.probe = { b.scope.probe with
        deletes := b.scope.probe.deletes ++
          [⟨action.mapName, action.key.variableName⟩] } := by
  unfold delete at h
  obtain ⟨_, _, hmap, h⟩ := Step.runFrom_bind_ok.mp h
  simp only [Step.runFrom_query, Prod.mk.injEq] at hmap
  obtain ⟨hmap, rfl⟩ := hmap
  obtain ⟨key, d, hscope, h⟩ := Step.runFrom_bind_ok.mp h
  cases h
  obtain ⟨hkey, hworkspace⟩ := runFrom_onScope_ok.mp hscope
  obtain ⟨hcontains, rfl, hd⟩ := Scope.runFrom_keyVariable_ok.mp hkey
  exact ⟨⟨_, hmap⟩, by simpa [hd] using hcontains, hworkspace, by simp [hd]⟩

/-! ## Outputs -/

def outputRecord (language : Language) (action : Logical.OutputAction) (b : Build) :
    Except LowerError (Nat × PerfBuffer × Struct) :=
  match b.workspace.output? action.outputName with
  | .error e => .error e
  | .ok (index, buffer) =>
      match outputStruct action buffer.fields (implicitColumns language)
          b.scope.symbols with
      | .error e => .error e
      | .ok event =>
          if buffer.structType ≠ "" ∧ buffer.structType ≠ event.name then
            .error (.structTypeConflict action.outputName buffer.structType event.name)
          else .ok (index, buffer, event)

def writeBuffer (index : Nat) (buffer : PerfBuffer) (event : Struct)
    (w : Workspace) : Workspace :=
  (w.setOutput index { buffer with structType := event.name }).registerStruct event

def writeOutput (language : Language) (action : Logical.OutputAction) (index : Nat)
    (buffer : PerfBuffer) (event : Struct) : Step Build Unit := do
  onWorkspace (writeBuffer index buffer event)
  onScope (Scope.addVariable (.struct ⟨valueVariableName action.outputName,
    event.name, outputAssignments (implicitColumns language) action event⟩))
  changeProbe fun probe => { probe with
    outputs := probe.outputs ++
      [⟨action.outputName, valueVariableName action.outputName⟩] }

theorem output_eq (language : Language) (action : Logical.OutputAction) :
    output language action =
      (do
        let (index, buffer, event) ← .query (outputRecord language action)
        writeOutput language action index buffer event) := by
  funext b
  change (output language action).runFrom b = Step.runFrom (_ >>= _) b
  unfold output outputRecord
  simp only [Step.runFrom_bind, Step.runFrom_query]
  cases b.workspace.output? action.outputName with
  | error e => rfl
  | ok found =>
      obtain ⟨index, buffer⟩ := found
      simp only
      cases outputStruct action buffer.fields (implicitColumns language)
          b.scope.symbols with
      | error e => rfl
      | ok event =>
          by_cases htype : buffer.structType ≠ "" ∧ buffer.structType ≠ event.name
          · simp [htype]
          · simp only [htype, if_false]
            rfl

theorem keeps_output (hstruct : ∀ x, P (.struct x)) (language : Language)
    (action : Logical.OutputAction) :
    Step.Keeps (Extends P) (output language action) := by
  rw [output_eq]
  refine (Step.Keeps.query _).bind fun (index, buffer, event) => ?_
  refine (keeps_onWorkspace _).bind fun _ => ?_
  exact (keeps_onScope (Scope.keeps_addVariable (hstruct _))).bind fun _ =>
    keeps_changeProbe fun _ => rfl

theorem outputRecord_ok {language : Language} {action : Logical.OutputAction}
    {b : Build} {index : Nat} {buffer : PerfBuffer} {event : Struct}
    (h : outputRecord language action b = .ok (index, buffer, event)) :
    b.workspace.output? action.outputName = .ok (index, buffer) ∧
      outputStruct action buffer.fields (implicitColumns language)
        b.scope.symbols = .ok event := by
  unfold outputRecord at h
  split at h
  next => contradiction
  next houtput =>
    split at h
    next => contradiction
    next hevent =>
      split at h
      next => contradiction
      next =>
        cases h
        exact ⟨houtput, hevent⟩

theorem output_ok {language : Language} {action : Logical.OutputAction} {b c : Build}
    (h : (output language action).runFrom b = (.ok (), c)) :
    ∃ index buffer event,
      outputRecord language action b = .ok (index, buffer, event) ∧
      c.workspace = writeBuffer index buffer event b.workspace ∧
      c.scope.probe = { b.scope.probe with
        vars := b.scope.probe.vars ++ [.struct ⟨valueVariableName action.outputName,
          event.name, outputAssignments (implicitColumns language) action event⟩]
        outputs := b.scope.probe.outputs ++
          [⟨action.outputName, valueVariableName action.outputName⟩] } := by
  rw [output_eq] at h
  obtain ⟨⟨index, buffer, event⟩, _, hevent, h⟩ := Step.runFrom_bind_ok.mp h
  simp only [Step.runFrom_query, Prod.mk.injEq] at hevent
  obtain ⟨hevent, rfl⟩ := hevent
  obtain ⟨_, _, hworkspace, h⟩ := Step.runFrom_bind_ok.mp h
  cases hworkspace
  obtain ⟨_, d, hscope, h⟩ := Step.runFrom_bind_ok.mp h
  cases h
  obtain ⟨hvariable, hworkspace⟩ := runFrom_onScope_ok.mp hscope
  refine ⟨index, buffer, event, hevent, hworkspace, ?_⟩
  simp [Scope.probe_of_addVariable hvariable]

end Build

end ProbeLowering
