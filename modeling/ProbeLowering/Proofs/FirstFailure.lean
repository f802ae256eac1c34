import ProbeLowering.Proofs.Plan
import ProbeLowering.Run.Failure

/-!
# The first failure of a deployment

A deployment fails because of its number of tracepoints, or at the first probe that cannot
be lowered in the workspace that the probes before it leave.  No part of a probe raises an
error that names a probe (`raises_step`), so the name is put around an error exactly once.
It is no part of what went wrong: kind and exit code are those of the root cause
(`errors_of_lowerDeployment`).
-/

namespace ProbeLowering

open DebugInfo
open Logical (RecordAction)

namespace LowerError

def IsPlain : LowerError → Prop
  | tracepointCount _ | structTypeConflict _ _ _ | inProbe _ _ => False
  | _ => True

theorem IsPlain.probe?_eq {e : LowerError} (h : e.IsPlain) : e.probe? = none := by
  cases e <;> first | rfl | contradiction

def AcceptsRoot : LowerError → Prop
  | invalidReturnExpression _ => False
  | e => e.IsPlain

theorem AcceptsRoot.isPlain {e : LowerError} (h : e.AcceptsRoot) : e.IsPlain := by
  cases e <;> first | exact h | contradiction

def IsLookup : LowerError → Prop
  | duplicateVariable _ => False
  | e => e.AcceptsRoot

theorem IsLookup.acceptsRoot {e : LowerError} (h : e.IsLookup) : e.AcceptsRoot := by
  cases e <;> first | exact h | contradiction

theorem IsLookup.isPlain {e : LowerError} (h : e.IsLookup) : e.IsPlain :=
  h.acceptsRoot.isPlain

theorem atProbe_of_probe? {e : LowerError} (h : e.probe? = none) (probe : String) :
    e.atProbe probe = .inProbe probe e := by
  cases e <;> first | rfl | contradiction

theorem rootCause_of_probe? {e : LowerError} (h : e.probe? = none) : e.rootCause = e := by
  cases e <;> first | rfl | contradiction

theorem kind_rootCause (e : LowerError) : e.rootCause.kind = e.kind := by
  induction e with
  | inProbe probe source ih => exact ih
  | _ => rfl

theorem probe?_rootCause (e : LowerError) : e.rootCause.probe? = none := by
  induction e with
  | inProbe probe source ih => exact ih
  | _ => rfl

end LowerError

open LowerError (IsPlain AcceptsRoot IsLookup)

theorem Step.Raises.acceptsRoot {σ α : Type} {step : Step σ α} (h : Step.Raises IsLookup step) :
    Step.Raises AcceptsRoot step :=
  h.of_imp fun _ => IsLookup.acceptsRoot

theorem Step.Raises.isPlain {σ α : Type} {step : Step σ α} (h : Step.Raises AcceptsRoot step) :
    Step.Raises IsPlain step :=
  h.of_imp fun _ => AcceptsRoot.isPlain

theorem raises_resolveScalarType (language : Language) (kind : VarKind) (typeName : String) :
    Step.Raises IsLookup
      (Step.query fun _ : Scope => resolveScalarType language kind typeName) := by
  refine .query fun _ e h => ?_
  unfold resolveScalarType at h
  split at h
  next => split at h <;> cases h; trivial
  next => cases h
  next => split at h <;> cases h; trivial
  next => cases h; trivial

namespace Scope

theorem raises_addVariable (v : Physical.Variable) :
    Step.Raises AcceptsRoot (addVariable v) := by
  refine .update fun scope e h => ?_
  unfold add SymbolTable.declare at h
  split at h
  next hdeclare =>
    cases h
    split at hdeclare <;> cases hdeclare
    trivial
  next => cases h

theorem raises_addScalar (name : String) (type : ScalarType)
    (source : Physical.ScalarSource) : Step.Raises AcceptsRoot (addScalar name type source) :=
  raises_addVariable _

theorem raises_keyVariable (helper : Builtin) :
    Step.Raises IsLookup (keyVariable helper) := by
  refine .query fun scope e h => ?_
  split at h
  next => cases h
  next => cases h; trivial

theorem raises_addSpecialVariables (language : Language) :
    Step.Raises AcceptsRoot (addSpecialVariables language) := by
  unfold addSpecialVariables addBuiltin
  refine (raises_addScalar _ _ _).bind fun _ => ?_
  refine (raises_addScalar _ _ _).bind fun _ => ?_
  refine (raises_addScalar _ _ _).bind fun _ => ?_
  refine (raises_addScalar _ _ _).bind fun _ => ?_
  refine (raises_addScalar _ _ _).bind fun _ => ?_
  have hregister : Step.Raises AcceptsRoot (do
      if (← get).probe.tracepoint.isReturn && language.returnsInRegister then
        addScalar returnRegisterVariable .voidPointer (.register .rc)) :=
    Step.Raises.get.bind fun _ => (raises_addScalar _ _ _).ite (.pure ())
  exact ((raises_addScalar _ _ _).bind fun _ => hregister).ite hregister

theorem raises_addLatency (latency : FunctionLatency) :
    Step.Raises AcceptsRoot (addLatency latency) :=
  (raises_addScalar _ _ _).bind fun _ => .modify _

end Scope

theorem Walk.raises_deref (language : Language) (walk : Walk) :
    Step.Raises AcceptsRoot (walk.deref language) :=
  (raises_resolveScalarType _ _ _).acceptsRoot.bind fun _ =>
    (Scope.raises_addScalar _ _ _).bind fun _ => .pure _

theorem Setting.raises_member (setting : Setting) (typeName field : String) :
    Step.Raises IsLookup (Step.query fun _ : Scope =>
      (setting.facts.member typeName field).mapError .debugInfo) := by
  refine .query fun _ e h => ?_
  cases hmember : setting.facts.member typeName field with
  | ok info => simp [hmember, Except.mapError] at h
  | error found =>
      obtain rfl : LowerError.debugInfo found = e := by
        simpa [hmember, Except.mapError] using h
      trivial

theorem Walk.raises_enterField (setting : Setting) (walk : Walk) (field : String) :
    Step.Raises AcceptsRoot (walk.enterField setting field) := by
  have hcross : Step.Raises AcceptsRoot (walk.crossPointer setting.language) :=
    (walk.raises_deref setting.language).ite (.pure walk)
  exact hcross.bind fun _ => (setting.raises_member _ _).acceptsRoot.bind fun _ => .pure _

theorem Walk.raises_enterFields (setting : Setting) (walk : Walk) (fields : List String) :
    Step.Raises AcceptsRoot (walk.enterFields setting fields) := by
  induction fields generalizing walk with
  | nil => exact .pure walk
  | cons field rest ih => exact (walk.raises_enterField setting field).bind ih

theorem raises_lowerAccessChain (setting : Setting) (id : String) (root : ExprRoot)
    (fields : List String) : Step.Raises AcceptsRoot (lowerAccessChain setting id root fields) := by
  refine (Walk.raises_enterFields setting _ fields).bind fun walk => ?_
  have hthrough : Step.Raises AcceptsRoot (walk.readThrough setting.language) :=
    ((walk.raises_deref _).bind fun _ => .pure _).ite (.pure walk)
  refine hthrough.bind fun walk => ?_
  exact (raises_resolveScalarType _ _ _).acceptsRoot.bind fun _ =>
    Scope.raises_addScalar _ _ _

theorem Setting.raises_argInfo (setting : Setting) (name : String) :
    Step.Raises IsLookup (setting.argInfo name) := by
  refine .query fun scope e h => ?_
  split at h
  next => cases h
  next => cases h; trivial

theorem raises_lowerArgument (setting : Setting) (arg : Logical.Argument) :
    Step.Raises AcceptsRoot (lowerArgument setting arg) := by
  unfold lowerArgument
  split
  next => exact .throw trivial
  next expr _ =>
    exact (setting.raises_argInfo expr.root).acceptsRoot.bind fun _ =>
      raises_lowerAccessChain _ _ _ _

theorem raises_lowerRegisterReturn (setting : Setting) (id : String)
    (fields : List String) : Step.Raises AcceptsRoot (lowerRegisterReturn setting id fields) := by
  unfold lowerRegisterReturn
  dsimp only
  split
  next =>
    exact (raises_resolveScalarType _ _ _).acceptsRoot.bind fun _ =>
      Scope.raises_addScalar _ _ _
  next =>
    exact Step.Raises.get.bind fun _ =>
      (raises_lowerAccessChain _ _ _ _).ite (.throw trivial)
  next => exact Step.Raises.get.bind fun _ => .throw trivial
  next => exact .throw trivial

theorem raises_lowerReturnValue (setting : Setting) (value : Logical.ReturnValue) :
    Step.Raises IsPlain (lowerReturnValue setting value) := by
  unfold lowerReturnValue
  split
  next => exact .throw trivial
  next expr _ =>
    split
    next => exact .throw trivial
    next =>
      split
      next =>
        exact ((setting.raises_argInfo _).acceptsRoot.bind fun _ =>
          raises_lowerAccessChain _ _ _ _).isPlain
      next => exact (raises_lowerRegisterReturn _ _ _).isPlain.ite (.throw trivial)
      next => exact (raises_lowerRegisterReturn _ _ _).isPlain.ite (.throw trivial)
      next => exact .throw trivial

/-! ## Errors of parts -/

namespace Workspace

variable {w : Workspace} {name : String} {e : LowerError}

theorem isLookup_of_map? (h : w.map? name = .error e) : e.IsLookup := by
  unfold map? at h
  split at h
  next => cases h; trivial
  next => split at h <;> cases h; trivial

theorem isLookup_of_output? (h : w.output? name = .error e) : e.IsLookup := by
  unfold output? at h
  split at h
  next => cases h; trivial
  next => split at h <;> cases h; trivial

theorem isLookup_of_struct? (h : w.struct? name = .error e) : e.IsLookup := by
  unfold struct? at h
  split at h
  next => cases h; trivial
  next => split at h <;> cases h; trivial

end Workspace

theorem isLookup_of_schemaFields {symbols : SymbolTable} {owner : String}
    {sources : List (String × String)} {e : LowerError}
    (h : schemaFields symbols owner sources = .error e) : e.IsLookup := by
  induction sources with
  | nil => cases h
  | cons source rest ih =>
      unfold schemaFields SymbolTable.requireScalar at h
      split at h
      next hscalar =>
        cases h
        split at hscalar <;> cases hscalar
        trivial
      next =>
        split at h
        next hrest =>
          cases h
          exact ih hrest
        next => cases h

theorem isLookup_of_mapValueStruct {action : Logical.StashAction} {symbols : SymbolTable}
    {e : LowerError} (h : mapValueStruct action symbols = .error e) : e.IsLookup :=
  isLookup_of_schemaFields (error_of_map_error h)

theorem isLookup_of_outputStruct {action : Logical.OutputAction}
    {outputFields columns : List String} {symbols : SymbolTable} {e : LowerError}
    (h : outputStruct action outputFields columns symbols = .error e) : e.IsLookup := by
  unfold outputStruct at h
  split at h
  next => cases h; trivial
  next => exact isLookup_of_schemaFields (error_of_map_error h)

namespace Build

variable {b : Build} {e : LowerError}

theorem raises_onScope {α : Type} {P : LowerError → Prop} {step : Step Scope α}
    (h : Step.Raises P step) : Step.Raises P (onScope step) := by
  intro b e c hrun
  obtain ⟨hscope, -⟩ := Prod.mk.inj hrun
  exact h b.scope e (step.runFrom b.scope).2 (Prod.ext hscope rfl)

theorem isLookup_of_readLayout {value : Logical.MapValue}
    (h : readLayout value b = .error e) : e.IsLookup := by
  unfold readLayout at h
  split at h
  next hmap =>
    cases h
    exact Workspace.isLookup_of_map? hmap
  next =>
    split at h
    next hstruct =>
      cases h
      exact Workspace.isLookup_of_struct? hstruct
    next => split at h <;> cases h; trivial

theorem stashRecord_error {action : Logical.StashAction}
    (h : stashRecord action b = .error e) :
    e.IsLookup ∨ ∃ index decl existing,
      b.workspace.map? action.mapName = .ok (index, decl) ∧
      decl.valueStruct = some existing ∧ existing ≠ structTypeName action.mapName ∧
      e = .structTypeConflict action.mapName existing (structTypeName action.mapName) := by
  unfold stashRecord at h
  split at h
  next hmap =>
    cases h
    exact .inl (Workspace.isLookup_of_map? hmap)
  next index decl hmap =>
    split at h
    next hschema =>
      cases h
      exact .inl (isLookup_of_mapValueStruct hschema)
    next record hschema =>
      have hname : record.name = structTypeName action.mapName :=
        name_of_mapValueStruct hschema
      split at h
      next => cases h
      next existing hexisting =>
        rw [hname] at h
        split at h <;> cases h
        next hne => exact .inr ⟨index, decl, existing, hmap, hexisting, hne, rfl⟩

theorem outputRecord_error {language : Language} {action : Logical.OutputAction}
    (h : outputRecord language action b = .error e) :
    e.IsLookup ∨ ∃ index buffer, b.workspace.output? action.outputName = .ok (index, buffer) ∧
      buffer.structType ≠ structTypeName action.outputName ∧
      e = .structTypeConflict action.outputName buffer.structType
        (structTypeName action.outputName) := by
  unfold outputRecord at h
  split at h
  next houtput =>
    cases h
    exact .inl (Workspace.isLookup_of_output? houtput)
  next index buffer houtput =>
    split at h
    next hschema =>
      cases h
      exact .inl (isLookup_of_outputStruct hschema)
    next event hschema =>
      rw [name_of_outputStruct hschema] at h
      split at h <;> cases h
      next hne => exact .inr ⟨index, buffer, houtput, hne.2, rfl⟩

end Build

namespace Plan

variable {P : LowerError → Prop} {plan : Plan}

theorem raises_step (hplan : ∀ b e, plan b = .error e → P e)
    (hdeclare : ∀ b effect, plan b = .ok effect → Step.Raises P effect.declare) :
    Step.Raises P plan.step := by
  intro b e c hrun
  rw [runFrom_step] at hrun
  cases hb : plan b with
  | error found =>
      rw [hb] at hrun
      cases hrun
      exact hplan b e hb
  | ok effect =>
      rw [hb] at hrun
      obtain ⟨hscope, -⟩ := Prod.mk.inj hrun
      exact hdeclare b effect hb _ e _ (Prod.ext hscope rfl)

theorem raises_declare_write {language : Language} {action : RecordAction} {b : Build}
    {effect : Effect} (h : write language action b = .ok effect) :
    Step.Raises IsPlain effect.declare := by
  cases action with
  | stash action =>
      obtain ⟨_, -, rfl⟩ := exists_ok_of_map_ok h
      exact ((Scope.raises_addVariable _).bind fun _ =>
        (Scope.raises_keyVariable _).acceptsRoot.bind fun _ => .modify _).isPlain
  | output action =>
      obtain ⟨_, -, rfl⟩ := exists_ok_of_map_ok h
      exact ((Scope.raises_addVariable _).bind fun _ => .modify _).isPlain

theorem probe?_of_write {language : Language} {action : RecordAction} {b : Build}
    {e : LowerError} (h : write language action b = .error e) : e.probe? = none := by
  cases action with
  | stash action =>
      rcases Build.stashRecord_error (error_of_map_error h) with
        hlookup | ⟨_, _, _, -, -, -, rfl⟩
      · exact hlookup.isPlain.probe?_eq
      · rfl
  | output action =>
      rcases Build.outputRecord_error (error_of_map_error h) with
        hlookup | ⟨_, _, -, -, rfl⟩
      · exact hlookup.isPlain.probe?_eq
      · rfl

end Plan

namespace Logical.Part

def action? : Part → Option RecordAction
  | .stash action => some (.stash action)
  | .output action => some (.output action)
  | _ => none

theorem step_of_action? {setting : Setting} {part : Part} {action : RecordAction}
    (h : part.action? = some action) :
    part.step setting = (Plan.write setting.language action).step := by
  rw [Plan.step_write]
  cases part <;> cases h <;> rfl

theorem isPlain_of_action?_none {part : Part} (h : part.action? = none)
    (setting : Setting) : Step.Raises IsPlain (part.step setting) := by
  cases part with
  | special => exact Build.raises_onScope (Scope.raises_addSpecialVariables _).isPlain
  | constant => exact Build.raises_onScope (Scope.raises_addScalar _ _ _).isPlain
  | argument => exact Build.raises_onScope (raises_lowerArgument _ _).isPlain
  | returnValue => exact Build.raises_onScope (raises_lowerReturnValue _ _)
  | latency => exact Build.raises_onScope (Scope.raises_addLatency _).isPlain
  | printks => exact Step.Raises.modify _
  | read value =>
      rw [step, ← Plan.step_read]
      refine Plan.raises_step (fun b e h => ?_) fun b effect h => ?_
      · exact (Build.isLookup_of_readLayout (error_of_map_error h)).isPlain
      · obtain ⟨_, -, rfl⟩ := exists_ok_of_map_ok h
        exact ((Scope.raises_keyVariable _).acceptsRoot.bind fun _ =>
          (Scope.raises_addVariable _).bind fun _ =>
            .forM fun _ => Scope.raises_addVariable _).isPlain
  | delete action =>
      rw [step, ← Plan.step_delete]
      refine Plan.raises_step (fun b e h => ?_) fun b effect h => ?_
      · exact (Workspace.isLookup_of_map? (error_of_map_error h)).isPlain
      · obtain ⟨_, -, rfl⟩ := exists_ok_of_map_ok h
        exact ((Scope.raises_keyVariable _).acceptsRoot.bind fun _ => .modify _).isPlain
  | stash | output => cases h

theorem raises_step (part : Part) (setting : Setting) :
    Step.Raises (fun e => e.probe? = none) (part.step setting) := by
  cases h : part.action? with
  | none => exact (isPlain_of_action?_none h setting).of_imp fun _ => IsPlain.probe?_eq
  | some action =>
      rw [step_of_action? h]
      exact Plan.raises_step (fun _ _ => Plan.probe?_of_write) fun _ _ h =>
        (Plan.raises_declare_write h).of_imp fun _ => IsPlain.probe?_eq

end Logical.Part

/-! ## The failing probe -/

namespace Workspace

section Probe

variable {facts : Facts} {language : Language}

theorem lowerProbe_error {input : Logical.Probe} {w v : Workspace} {e : LowerError}
    (h : w.lowerProbe facts language input = (.error e, v)) :
    (∃ cause, e = .debugInfo cause) ∨
      ∃ setting done part rest b c,
        Setting.ofSymbol facts language input.tracepoint.symbol = .ok setting ∧
        input.parts = done ++ part :: rest ∧
        (Step.sequence (done.map (Logical.Part.step setting))).runFrom
          ⟨w, Scope.start input.name input.tracepoint⟩ = (.ok (), b) ∧
        (part.step setting).runFrom b = (.error e, c) ∧ c.workspace = v := by
  unfold lowerProbe at h
  split at h
  next hsetting =>
    cases h
    unfold Setting.ofSymbol at hsetting
    split at hsetting
    next cause _ => cases hsetting; exact .inl ⟨cause, rfl⟩
    next =>
      split at hsetting
      next cause _ => cases hsetting; exact .inl ⟨cause, rfl⟩
      next => cases hsetting
  next setting hsetting =>
    rw [Build.lowerParts_eq_sequence, ← Build.map_step_parts] at h
    dsimp only at h
    split at h
    next c hrun =>
      cases h
      obtain ⟨before, step, after, b, hsteps, hbefore, hstep⟩ :=
        Step.runFrom_sequence_error.mp hrun
      obtain ⟨done, others, hparts, rfl, hothers⟩ := List.map_eq_append_iff.mp hsteps
      obtain ⟨part, rest, rfl, rfl, rfl⟩ := List.map_eq_cons_iff.mp hothers
      exact .inr ⟨setting, done, part, rest, b, c, hsetting, hparts, hbefore, hstep, rfl⟩
    next => cases h

theorem probe?_of_lowerProbe {input : Logical.Probe} {w v : Workspace} {e : LowerError}
    (h : w.lowerProbe facts language input = (.error e, v)) : e.probe? = none := by
  rcases lowerProbe_error h with ⟨_, rfl⟩ | ⟨setting, _, part, _, b, c, -, -, -, hpart, -⟩
  · rfl
  · exact part.raises_step setting b e c hpart

theorem generateProbe_error {input : Logical.Probe} {w v : Workspace} {e : LowerError} :
    (generateProbe facts language input).runFrom w = (.error e, v) ↔
      ∃ source, w.lowerProbe facts language input = (.error source, v) ∧
        e = .inProbe input.name source := by
  rw [runFrom_generateProbe]
  rcases hlowered : w.lowerProbe facts language input with ⟨source | probe, u⟩
  · have hplain : source.probe? = none := probe?_of_lowerProbe hlowered
    simp [LowerError.atProbe_of_probe? hplain, and_comm, eq_comm]
  · simp

end Probe

/--
The probes before `probe` are lowered one after the other, and in the workspace that they
leave `probe` fails with `source`.
-/
def FailsAt (facts : Facts) (target : Target) (input : Logical.Program)
    (probe : Logical.Probe) (source : LowerError) : Prop :=
  ∃ before after w v, input.probes = before ++ probe :: after ∧
    (generateProbes facts input.language before).runFrom (ofProgram target input) =
      (.ok (), w) ∧
    w.lowerProbe facts input.language probe = (.error source, v)

theorem FailsAt.probe?_eq {facts : Facts} {target : Target} {input : Logical.Program}
    {probe : Logical.Probe} {source : LowerError}
    (h : FailsAt facts target input probe source) : source.probe? = none := by
  obtain ⟨_, _, _, _, -, -, hsource⟩ := h
  exact probe?_of_lowerProbe hsource

theorem failsAt_of_generateProbes {facts : Facts} {target : Target}
    {input : Logical.Program} {e : LowerError} :
    (∃ u, (generateProbes facts input.language input.probes).runFrom
        (ofProgram target input) = (.error e, u)) ↔
      ∃ probe source, FailsAt facts target input probe source ∧
        e = .inProbe probe.name source := by
  constructor
  · rintro ⟨u, hrun⟩
    obtain ⟨before, step, after, w, hsteps, hbefore, hstep⟩ :=
      Step.runFrom_sequence_error.mp hrun
    obtain ⟨earlier, rest, hprobes, rfl, hrest⟩ := List.map_eq_append_iff.mp hsteps
    obtain ⟨probe, later, rfl, rfl, rfl⟩ := List.map_eq_cons_iff.mp hrest
    obtain ⟨source, hsource, rfl⟩ := generateProbe_error.mp hstep
    exact ⟨probe, source, ⟨earlier, later, w, u, hprobes, hbefore, hsource⟩, rfl⟩
  · rintro ⟨probe, source, ⟨before, after, w, v, hprobes, hbefore, hsource⟩, rfl⟩
    refine ⟨v, Step.runFrom_sequence_error.mpr ⟨before.map (generateProbe facts input.language),
      generateProbe facts input.language probe, after.map (generateProbe facts input.language),
      w, ?_, hbefore, generateProbe_error.mpr ⟨source, hsource, rfl⟩⟩⟩
    rw [hprobes, List.map_append, List.map_cons]

end Workspace

theorem lowerDeployment_of_length {facts : Facts} {deployment : Logical.Deployment}
    (h : deployment.tracepoints.length ≠ 1) :
    lowerDeployment facts deployment =
      .error (.tracepointCount deployment.tracepoints.length) := by
  have hcount : deployment.program? =
      .error (.tracepointCount deployment.tracepoints.length) := by
    unfold Logical.Deployment.program?
    split
    next hsingle => simp [hsingle] at h
    next => rfl
  simp [lowerDeployment, hcount]

theorem lowerDeployment_error_of_single {facts : Facts} {deployment : Logical.Deployment}
    {input : Logical.Program} (hsingle : deployment.tracepoints = [input]) {e : LowerError} :
    lowerDeployment facts deployment = .error e ↔
      ∃ probe source, Workspace.FailsAt facts deployment.target input probe source ∧
        e = .inProbe probe.name source := by
  rw [← Workspace.failsAt_of_generateProbes]
  have hprogram : deployment.program? = .ok input := by
    simp [Logical.Deployment.program?, hsingle]
  simp only [lowerDeployment, hprogram, Step.forM_eq_sequence, Workspace.generateProbes]
  rcases (Step.sequence (input.probes.map
    (Workspace.generateProbe facts input.language))).runFrom
      (Workspace.ofProgram deployment.target input) with ⟨_ | _, u⟩
  · simp
  · simp

/--
A deployment is refused for its number of tracepoints if and only if there is not exactly
one, whatever the debug facts are.  Otherwise it fails exactly if one of its probes is the
first to fail; its name is then put around an error without a probe.  Kind and exit code
are those of the root cause.
-/
theorem errors_of_lowerDeployment (facts : Facts) (deployment : Logical.Deployment) :
    (∀ count, lowerDeployment facts deployment = .error (.tracepointCount count) ↔
      count = deployment.tracepoints.length ∧ count ≠ 1) ∧
    (∀ input, deployment.tracepoints = [input] → ∀ e,
      (lowerDeployment facts deployment = .error e ↔
        ∃ probe source, Workspace.FailsAt facts deployment.target input probe source ∧
          source.probe? = none ∧ e = .inProbe probe.name source)) ∧
    ∀ e, lowerDeployment facts deployment = .error e →
      e.rootCause.probe? = none ∧ e.kind = e.rootCause.kind ∧
        (RunFailure.lowering e).exitCode =
          match e.rootCause.kind with
          | .user => 2
          | .notFound => 3
          | .internal => 4 := by
  refine ⟨fun count => ⟨fun h => ?_, fun ⟨hcount, hne⟩ => ?_⟩, fun input hsingle e => ?_,
    fun e _ => ⟨e.probe?_rootCause, e.kind_rootCause.symm, ?_⟩⟩
  · by_cases hlength : deployment.tracepoints.length = 1
    · obtain ⟨input, hsingle⟩ := List.length_eq_one_iff.mp hlength
      obtain ⟨_, _, -, hwrapped⟩ := (lowerDeployment_error_of_single hsingle).mp h
      cases hwrapped
    · rw [lowerDeployment_of_length hlength] at h
      cases h
      exact ⟨rfl, hlength⟩
  · subst hcount
    exact lowerDeployment_of_length hne
  · rw [lowerDeployment_error_of_single hsingle]
    constructor
    · rintro ⟨probe, source, hfails, rfl⟩
      exact ⟨probe, source, hfails, hfails.probe?_eq, rfl⟩
    · rintro ⟨probe, source, hfails, -, rfl⟩
      exact ⟨probe, source, hfails, rfl⟩
  · cases hkind : e.kind <;>
      simp [RunFailure.exitCode, LowerError.exitCode, e.kind_rootCause, hkind]

def misnamedReturn : Logical.Probe := { callReturn with args := [⟨"id", "req.number"⟩] }

def misnamedTracing : Logical.Deployment :=
  ⟨⟨"/usr/bin/server"⟩, [{ callInput with probes := [callEntry, misnamedReturn] }]⟩

theorem errors_of_lowerDeployment_misnamedTracing :
    lowerDeployment callFacts misnamedTracing = .error
        (.inProbe "serve_return" (.debugInfo (.memberNotFound "main.Request" "number"))) ∧
      (∃ probe, probe.name = "serve_return" ∧
        Workspace.FailsAt callFacts misnamedTracing.target
          { callInput with probes := [callEntry, misnamedReturn] } probe
          (.debugInfo (.memberNotFound "main.Request" "number"))) ∧
      (RunFailure.lowering (.inProbe "serve_return"
        (.debugInfo (.memberNotFound "main.Request" "number")))).exitCode = 3 := by
  have hfailed : lowerDeployment callFacts misnamedTracing = .error
      (.inProbe "serve_return" (.debugInfo (.memberNotFound "main.Request" "number"))) := by
    decide +kernel
  obtain ⟨-, hfirst, hroot⟩ := errors_of_lowerDeployment callFacts misnamedTracing
  obtain ⟨probe, source, hfails, -, hwrapped⟩ := (hfirst _ rfl _).mp hfailed
  obtain ⟨hname, rfl⟩ := LowerError.inProbe.inj hwrapped
  obtain ⟨-, -, hcode⟩ := hroot _ hfailed
  exact ⟨hfailed, ⟨probe, hname.symm, hfails⟩, hcode⟩

end ProbeLowering
