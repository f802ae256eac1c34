import ProbeLowering.Proofs.RecordAction

/-!
# Plans of the parts of a probe

A part of a probe first decides, from the build alone, what it is going to do:
which record it writes to the workspace, if any, and which step it then takes on
the scope.  Such an `Effect` is performed write first, so a part that fails in
its step on the scope has written already.  `Plan.writes` lists what a run of
parts writes, the part that it fails in included, and the workspace that the run
leaves is the old one with these writes applied (`workspace_of_run`).
-/

namespace ProbeLowering

open DebugInfo
open Physical (Struct PerfBuffer)
open Logical (RecordAction)

theorem exists_ok_of_map_ok {ε α β : Type} {f : α → β} {outcome : Except ε α} {b : β}
    (h : outcome.map f = .ok b) : ∃ a, outcome = .ok a ∧ f a = b := by
  cases outcome with
  | error e => cases h
  | ok a =>
      cases h
      exact ⟨a, rfl, rfl⟩

theorem error_of_map_error {ε α β : Type} {f : α → β} {outcome : Except ε α} {e : ε}
    (h : outcome.map f = .error e) : outcome = .error e := by
  cases outcome with
  | error found =>
      cases h
      rfl
  | ok a => cases h

theorem name_of_mapValueStruct {action : Logical.StashAction} {symbols : SymbolTable}
    {record : Struct} (h : mapValueStruct action symbols = .ok record) :
    record.name = structTypeName action.mapName := by
  obtain ⟨fields, -, rfl⟩ := exists_ok_of_map_ok h
  rfl

theorem name_of_outputStruct {action : Logical.OutputAction}
    {outputFields columns : List String} {symbols : SymbolTable} {event : Struct}
    (h : outputStruct action outputFields columns symbols = .ok event) :
    event.name = structTypeName action.outputName := by
  unfold outputStruct at h
  split at h
  next => cases h
  next =>
    obtain ⟨fields, -, rfl⟩ := exists_ok_of_map_ok h
    rfl

/-- A record for a map or an output, with the position of the entry that it types. -/
inductive RecordWrite where
  | map (index : Nat) (map : MapDecl) (record : Struct)
  | output (index : Nat) (buffer : PerfBuffer) (event : Struct)
  deriving DecidableEq, Repr

namespace RecordWrite

def record : RecordWrite → Struct
  | map _ _ record => record
  | output _ _ event => event

def apply : RecordWrite → Workspace → Workspace
  | map index decl record => Build.writeMap index decl record
  | output index buffer event => Build.writeBuffer index buffer event

def setEntry : RecordWrite → Workspace → Workspace
  | map index decl record => fun w => w.setMap index
      { decl with keyType := some .uint64, valueStruct := some record.name }
  | output index buffer event => fun w =>
      w.setOutput index { buffer with structType := event.name }

theorem apply_eq (write : RecordWrite) (w : Workspace) :
    write.apply w = (write.setEntry w).registerStruct write.record := by
  cases write <;> rfl

def applyAll (writes : List RecordWrite) (w : Workspace) : Workspace :=
  writes.foldl (fun w write => write.apply w) w

@[simp] theorem applyAll_nil (w : Workspace) : applyAll [] w = w := rfl

@[simp] theorem applyAll_cons (write : RecordWrite) (rest : List RecordWrite)
    (w : Workspace) : applyAll (write :: rest) w = applyAll rest (write.apply w) := rfl

theorem applyAll_append (first second : List RecordWrite) (w : Workspace) :
    applyAll (first ++ second) w = applyAll second (applyAll first w) :=
  List.foldl_append

/--
The write is one of this action: it types the entry that the map or output of the
action refers to, by the record that is named after it.
-/
inductive Fits (w : Workspace) : RecordAction → RecordWrite → Prop where
  | map {action : Logical.StashAction} {index : Nat} {decl : MapDecl} {record : Struct}
      (entry : w.map? action.mapName = .ok (index, decl))
      (name : record.name = structTypeName action.mapName) :
      Fits w (.stash action) (.map index decl record)
  | output {action : Logical.OutputAction} {index : Nat} {buffer : PerfBuffer}
      {event : Struct} (entry : w.output? action.outputName = .ok (index, buffer))
      (name : event.name = structTypeName action.outputName) :
      Fits w (.output action) (.output index buffer event)

theorem Fits.record_name {w : Workspace} {action : RecordAction} {write : RecordWrite}
    (h : Fits w action write) : write.record.name = structTypeName action.owner := by
  cases h with
  | map _ hname => exact hname
  | output _ hname => exact hname

def FitFrom (actions : List RecordAction) : Workspace → List RecordWrite → Prop
  | _, [] => True
  | w, write :: rest =>
      (∃ action ∈ actions, Fits w action write) ∧ FitFrom actions (write.apply w) rest

section FitFrom

variable {actions : List RecordAction} {w : Workspace}

theorem fitFrom_append {first second : List RecordWrite} :
    FitFrom actions w (first ++ second) ↔
      FitFrom actions w first ∧ FitFrom actions (applyAll first w) second := by
  induction first generalizing w with
  | nil => simp [FitFrom]
  | cons write rest ih => simp [FitFrom, ih, and_assoc]

/-- What every fitting write respects is respected by all of them together. -/
theorem FitFrom.related {R : Workspace → Workspace → Prop} [IsPreorder Workspace R]
    (hR : ∀ action ∈ actions, ∀ w (write : RecordWrite), Fits w action write →
      R w (write.apply w))
    {writes : List RecordWrite} (h : FitFrom actions w writes) :
    R w (applyAll writes w) := by
  induction writes generalizing w with
  | nil => exact refl_of R w
  | cons write rest ih =>
      obtain ⟨⟨action, haction, hfits⟩, hrest⟩ := h
      exact trans_of R (hR action haction w write hfits) (ih hrest)

end FitFrom

end RecordWrite

structure Effect where
  write? : Option RecordWrite := none
  declare : Step Scope Unit

namespace Effect

def perform (effect : Effect) : Step Build Unit := do
  Build.onWorkspace (RecordWrite.applyAll effect.write?.toList)
  Build.onScope effect.declare

theorem runFrom_perform (effect : Effect) (b : Build) :
    effect.perform.runFrom b =
      ((effect.declare.runFrom b.scope).1,
        ⟨RecordWrite.applyAll effect.write?.toList b.workspace,
          (effect.declare.runFrom b.scope).2⟩) := rfl

end Effect

abbrev Plan := Build → Except LowerError Effect

namespace Plan

def step (plan : Plan) : Step Build Unit := do
  let effect ← .query plan
  effect.perform

theorem runFrom_step (plan : Plan) (b : Build) :
    plan.step.runFrom b =
      match plan b with
      | .error e => (.error e, b)
      | .ok effect => effect.perform.runFrom b := by
  unfold step
  rw [Step.runFrom_bind, Step.runFrom_query]
  cases plan b <;> rfl

/-! ## The plan of each kind of part -/

def ofScope (step : Step Scope Unit) : Plan := fun _ => .ok { declare := step }

def read (value : Logical.MapValue) : Plan := fun b =>
  (Build.readLayout value b).map fun layout => { declare := Build.unpack value layout }

def delete (action : Logical.DeleteAction) : Plan := fun b =>
  (b.workspace.map? action.mapName).map fun _ =>
    { declare := do
        let key ← Scope.keyVariable action.key
        modify fun scope => { scope with probe := { scope.probe with
          deletes := scope.probe.deletes ++ [⟨action.mapName, key⟩] } } }

def declareStash (action : Logical.StashAction) (record : Struct) :
    Step Scope Unit := do
  Scope.addVariable (.struct ⟨Build.valueVariableName action.mapName, record.name,
    Build.stashAssignments action⟩)
  let key ← Scope.keyVariable action.key
  modify fun scope => { scope with probe := { scope.probe with
    stashes := scope.probe.stashes ++ [⟨action.mapName, key,
      Build.valueVariableName action.mapName, action.cond⟩] } }

def declareOutput (language : Language) (action : Logical.OutputAction)
    (event : Struct) : Step Scope Unit := do
  Scope.addVariable (.struct ⟨Build.valueVariableName action.outputName, event.name,
    Build.outputAssignments (implicitColumns language) action event⟩)
  modify fun scope => { scope with probe := { scope.probe with
    outputs := scope.probe.outputs ++
      [⟨action.outputName, Build.valueVariableName action.outputName⟩] } }

def write (language : Language) : RecordAction → Plan
  | .stash action => fun b =>
      (Build.stashRecord action b).map fun (index, map, record) =>
        ⟨some (.map index map record), declareStash action record⟩
  | .output action => fun b =>
      (Build.outputRecord language action b).map fun (index, buffer, event) =>
        ⟨some (.output index buffer event), declareOutput language action event⟩

theorem step_read (value : Logical.MapValue) :
    (read value).step = Build.readMap value := by
  rw [Build.readMap_eq]
  funext b
  change (read value).step.runFrom b = Step.runFrom (_ >>= _) b
  rw [runFrom_step, Step.runFrom_bind, Step.runFrom_query, read]
  cases Build.readLayout value b <;> rfl

theorem onScope_changeProbe {α : Type} (step : Step Scope α)
    (f : α → Physical.Probe → Physical.Probe) :
    (do
      let a ← Build.onScope step
      Build.changeProbe (f a)) =
      Build.onScope (do
        let a ← step
        modify fun scope => { scope with probe := f a scope.probe }) := by
  rw [Build.onScope_bind]
  rfl

theorem step_delete (action : Logical.DeleteAction) :
    (delete action).step = Build.delete action := by
  funext b
  change (delete action).step.runFrom b = (Build.delete action).runFrom b
  rw [runFrom_step, delete, Build.delete, onScope_changeProbe, Step.runFrom_bind,
    Step.runFrom_query]
  cases b.workspace.map? action.mapName <;> rfl

theorem step_write (language : Language) (action : RecordAction) :
    (write language action).step = action.step language := by
  funext b
  change (write language action).step.runFrom b = (action.step language).runFrom b
  rw [runFrom_step]
  cases action with
  | stash action =>
      rw [RecordAction.step, Build.stash_eq, write, Step.runFrom_bind, Step.runFrom_query]
      unfold Build.writeStash
      simp only [onScope_changeProbe, bind_assoc]
      cases Build.stashRecord action b <;> rfl
  | output action =>
      rw [RecordAction.step, Build.output_eq, write, Step.runFrom_bind,
        Step.runFrom_query]
      unfold Build.writeOutput
      simp only [onScope_changeProbe]
      cases Build.outputRecord language action b <;> rfl

def ofProbe (setting : Setting) (input : Logical.Probe) : List Plan :=
  (Scope.addSpecialVariables setting.language ::
      (input.consts.map Scope.addConstant ++ input.args.map (lowerArgument setting) ++
        input.retVals.map (lowerReturnValue setting))).map ofScope ++
    input.mapVals.map read ++
    (input.latency.toList.map Scope.addLatency).map ofScope ++
    (input.stashes.map fun action => write setting.language (.stash action)) ++
    input.deletes.map delete ++
    (input.outputs.map fun action => write setting.language (.output action)) ++
    [ofScope (modify fun scope =>
      { scope with probe := { scope.probe with printks := input.printks } })]

theorem map_step_ofProbe (setting : Setting) (input : Logical.Probe) :
    (ofProbe setting input).map step = Build.parts setting input := by
  have hread : step ∘ read = Build.readMap := funext step_read
  have hdelete : step ∘ delete = Build.delete := funext step_delete
  have hstash : (step ∘ fun action => write setting.language (.stash action)) =
      Build.stash := funext fun action => step_write _ (.stash action)
  have houtput : (step ∘ fun action => write setting.language (.output action)) =
      Build.output setting.language := funext fun action => step_write _ (.output action)
  simp only [ofProbe, Build.parts, Build.declareParts, Build.valueParts,
    Build.readParts, Build.latencyParts, Build.writeParts, List.map_append, List.map_map,
    List.map_cons, List.map_nil, hread, hdelete, hstash, houtput, List.append_assoc]
  -- What is left are parts on the scope alone.
  rfl

section Probe

variable {setting : Setting} {input : Logical.Probe} {plan : Plan}

theorem mem_ofProbe (h : plan ∈ ofProbe setting input) :
    (∃ step, plan = ofScope step) ∨ (∃ value ∈ input.mapVals, plan = read value) ∨
      (∃ action, plan = delete action) ∨
      ∃ action ∈ input.recordActions, plan = write setting.language action := by
  simp only [ofProbe, List.mem_append, List.mem_map, List.mem_singleton] at h
  rcases h with (((((⟨step, -, rfl⟩ | ⟨value, hvalue, rfl⟩) | ⟨step, -, rfl⟩) |
    ⟨action, haction, rfl⟩) | ⟨action, -, rfl⟩) | ⟨action, haction, rfl⟩) | rfl
  · exact .inl ⟨step, rfl⟩
  · exact .inr (.inl ⟨value, hvalue, rfl⟩)
  · exact .inl ⟨step, rfl⟩
  · exact .inr (.inr (.inr ⟨.stash action, by simp [Logical.Probe.recordActions, haction],
      rfl⟩))
  · exact .inr (.inr (.inl ⟨action, rfl⟩))
  · exact .inr (.inr (.inr ⟨.output action,
      by simp [Logical.Probe.recordActions, haction], rfl⟩))
  · exact .inl ⟨_, rfl⟩

theorem fits_of_write {language : Language} {action : RecordAction} {b : Build}
    {effect : Effect} {x : RecordWrite} (h : write language action b = .ok effect)
    (hx : effect.write? = some x) : x.Fits b.workspace action := by
  cases action with
  | stash action =>
      obtain ⟨⟨index, map, record⟩, hrecord, rfl⟩ := exists_ok_of_map_ok h
      cases hx
      obtain ⟨hentry, hschema⟩ := Build.stashRecord_ok hrecord
      exact .map hentry (name_of_mapValueStruct hschema)
  | output action =>
      obtain ⟨⟨index, buffer, event⟩, hrecord, rfl⟩ := exists_ok_of_map_ok h
      cases hx
      obtain ⟨hentry, hschema⟩ := Build.outputRecord_ok hrecord
      exact .output hentry (name_of_outputStruct hschema)

theorem fits_of_mem (h : plan ∈ ofProbe setting input) {b : Build} {effect : Effect}
    {x : RecordWrite} (hplan : plan b = .ok effect) (hx : effect.write? = some x) :
    ∃ action ∈ input.recordActions, x.Fits b.workspace action := by
  rcases mem_ofProbe h with ⟨step, rfl⟩ | ⟨value, -, rfl⟩ | ⟨action, rfl⟩ |
    ⟨action, haction, rfl⟩
  · cases hplan
    cases hx
  · obtain ⟨layout, -, rfl⟩ := exists_ok_of_map_ok hplan
    cases hx
  · obtain ⟨entry, -, rfl⟩ := exists_ok_of_map_ok hplan
    cases hx
  · exact ⟨action, haction, fits_of_write hplan hx⟩

theorem ensures_step {I : Workspace → Prop}
    (hI : ∀ w action (x : RecordWrite), x.Fits w action → I w → I (x.apply w))
    (h : plan ∈ ofProbe setting input) :
    Step.Ensures (fun b => I b.workspace) plan.step fun _ b => I b.workspace := by
  intro b _ c hb hrun
  rw [runFrom_step] at hrun
  cases hplan : plan b with
  | error e => simp [hplan] at hrun
  | ok effect =>
      simp only [hplan, Effect.runFrom_perform, Prod.mk.injEq] at hrun
      obtain ⟨-, rfl⟩ := hrun
      cases hx : effect.write? with
      | none => exact hb
      | some x =>
          obtain ⟨action, -, hfits⟩ := fits_of_mem h hplan hx
          exact hI b.workspace action x hfits hb

theorem write_mem_ofProbe {action : RecordAction} (h : action ∈ input.recordActions) :
    write setting.language action ∈ ofProbe setting input := by
  simp only [Logical.Probe.recordActions, List.mem_append, List.mem_map] at h
  simp only [ofProbe, List.mem_append, List.mem_map]
  rcases h with ⟨stash, hstash, rfl⟩ | ⟨event, hevent, rfl⟩
  · exact .inl (.inl (.inl (.inr ⟨stash, hstash, rfl⟩)))
  · exact .inl (.inr ⟨event, hevent, rfl⟩)

end Probe

/-! ## What a run writes -/

/-- The writes of a run of the plans, the part that fails included. -/
def writes : List Plan → Build → List RecordWrite
  | [], _ => []
  | plan :: rest, b =>
      match plan b with
      | .error _ => []
      | .ok effect =>
          effect.write?.toList ++
            match effect.perform.runFrom b with
            | (.ok (), c) => writes rest c
            | (.error _, _) => []

theorem workspace_of_run (plans : List Plan) (b : Build) :
    ((Step.sequence (plans.map step)).runFrom b).2.workspace =
      RecordWrite.applyAll (writes plans b) b.workspace := by
  induction plans generalizing b with
  | nil => rfl
  | cons plan rest ih =>
      rw [List.map_cons, Step.sequence, Step.runFrom_bind, runFrom_step, writes]
      cases hplan : plan b with
      | error e => rfl
      | ok effect =>
          simp only
          rcases hperform : effect.perform.runFrom b with ⟨outcome, c⟩
          have hc : RecordWrite.applyAll effect.write?.toList b.workspace =
              c.workspace := congrArg (·.2.workspace) hperform
          cases outcome with
          | error e => simp [hc]
          | ok _ => simp only [ih c, RecordWrite.applyAll_append, hc]

theorem fitFrom_writes {setting : Setting} {input : Logical.Probe} {plans : List Plan}
    (h : plans ⊆ ofProbe setting input) (b : Build) :
    RecordWrite.FitFrom input.recordActions b.workspace (writes plans b) := by
  induction plans generalizing b with
  | nil => trivial
  | cons plan rest ih =>
      have hmem : plan ∈ ofProbe setting input := h (by simp)
      have hrest : rest ⊆ ofProbe setting input := fun _ hnext => h (by simp [hnext])
      rw [writes]
      cases hplan : plan b with
      | error e => trivial
      | ok effect =>
          simp only
          refine RecordWrite.fitFrom_append.mpr ⟨?_, ?_⟩
          · cases hx : effect.write? with
            | none => trivial
            | some x => exact ⟨fits_of_mem hmem hplan hx, trivial⟩
          · rcases hperform : effect.perform.runFrom b with ⟨_ | _, c⟩
            · trivial
            · have hc : RecordWrite.applyAll effect.write?.toList b.workspace =
                  c.workspace := congrArg (·.2.workspace) hperform
              rw [hc]
              exact ih hrest c

end Plan

namespace Workspace

def probeWrites (facts : Facts) (language : Language) (input : Logical.Probe)
    (w : Workspace) : List RecordWrite :=
  match Setting.ofSymbol facts language input.tracepoint.symbol with
  | .error _ => []
  | .ok setting =>
      Plan.writes (Plan.ofProbe setting input) ⟨w, Scope.start input.name input.tracepoint⟩

section Probe

variable {facts : Facts} {language : Language} {input : Logical.Probe}

theorem workspace_of_lowerProbe (w : Workspace) :
    (w.lowerProbe facts language input).2 =
      RecordWrite.applyAll (w.probeWrites facts language input) w := by
  unfold lowerProbe probeWrites
  cases Setting.ofSymbol facts language input.tracepoint.symbol with
  | error e => rfl
  | ok setting =>
      simp only [Build.lowerParts_eq_sequence, ← Plan.map_step_ofProbe]
      rw [← Plan.workspace_of_run]
      split <;> simp [*]

theorem fitFrom_probeWrites (w : Workspace) :
    RecordWrite.FitFrom input.recordActions w (w.probeWrites facts language input) := by
  unfold probeWrites
  cases Setting.ofSymbol facts language input.tracepoint.symbol with
  | error e => trivial
  | ok setting =>
      exact Plan.fitFrom_writes (List.Subset.refl (Plan.ofProbe setting input))
        ⟨w, Scope.start input.name input.tracepoint⟩

theorem related_of_lowerProbe {R : Workspace → Workspace → Prop} [IsPreorder Workspace R]
    (hR : ∀ action ∈ input.recordActions, ∀ w (x : RecordWrite), x.Fits w action →
      R w (x.apply w))
    (w : Workspace) : R w (w.lowerProbe facts language input).2 := by
  rw [workspace_of_lowerProbe]
  exact (fitFrom_probeWrites w).related hR

/-- What a record action establishes and every fitting write keeps holds after the probe. -/
theorem established_of_lowerProbe {I J : Workspace → Prop}
    (hI : ∀ w action (x : RecordWrite), x.Fits w action → I w → I (x.apply w))
    (hJ : ∀ w action (x : RecordWrite), x.Fits w action → J w → J (x.apply w))
    {action : RecordAction} (haction : action ∈ input.recordActions)
    (hstep : Step.Ensures (fun b => I b.workspace) (action.step language)
      fun _ b => J b.workspace)
    {w v : Workspace} {probe : Physical.Probe} (hw : I w)
    (h : w.lowerProbe facts language input = (.ok probe, v)) : J v := by
  obtain ⟨setting, b, hsetting, hrun, -, rfl⟩ := lowerProbe_ok.mp h
  obtain ⟨-, rfl, -, -⟩ := Setting.ofSymbol_ok.mp hsetting
  rw [← Plan.map_step_ofProbe] at hrun
  have hmem : action.step setting.language ∈ (Plan.ofProbe setting input).map Plan.step := by
    rw [← Plan.step_write]
    exact List.mem_map_of_mem (Plan.write_mem_ofProbe haction)
  have hkeeps : ∀ {K : Workspace → Prop},
      (∀ w action (x : RecordWrite), x.Fits w action → K w → K (x.apply w)) →
      ∀ part ∈ (Plan.ofProbe setting input).map Plan.step,
        Step.Ensures (fun b => K b.workspace) part fun _ b => K b.workspace := by
    intro K hK part hpart
    obtain ⟨plan, hplan, rfl⟩ := List.mem_map.mp hpart
    exact Plan.ensures_step hK hplan
  exact Step.Ensures.sequence_of_mem (hkeeps hI) (hkeeps hJ) hmem hstep _ _ _ hw hrun

end Probe

end Workspace

end ProbeLowering
