import ProbeLowering.Proofs.Chain
import ProbeLowering.Proofs.MapRead
import ProbeLowering.Proofs.Session

/-!
# What becomes of a request

Every entry of a logical probe has its place in the probe that it is lowered to.  The
variables come in the order of the entries, in blocks that belong to one entry each, and
the actions correspond one to one (`Physical.Probe.Mirrors`).  A program has the probes,
maps and outputs of its request in their order (`requests_mirrored`).
-/

namespace ProbeLowering

open DebugInfo
open Physical (Variable PerfBuffer)
open Logical (RecordAction)

section Related

variable {α β : Type} {R : α → β → Prop} {xs : List α} {ys : List β}

theorem exists_related_right (h : List.Forall₂ R xs ys) {x : α} (hx : x ∈ xs) :
    ∃ y ∈ ys, R x y := by
  induction h with
  | nil => cases hx
  | cons hfirst _ ih =>
      rcases List.mem_cons.mp hx with rfl | hx
      · exact ⟨_, by simp, hfirst⟩
      · obtain ⟨y, hy, hxy⟩ := ih hx
        exact ⟨y, by simp [hy], hxy⟩

theorem exists_related_left (h : List.Forall₂ R xs ys) {y : β} (hy : y ∈ ys) :
    ∃ x ∈ xs, R x y :=
  exists_related_right h.flip hy

theorem exists_related_split {before after : List β} {y : β}
    (h : List.Forall₂ R xs (before ++ y :: after)) :
    ∃ earlier x later, xs = earlier ++ x :: later ∧ List.Forall₂ R earlier before ∧
      R x y ∧ List.Forall₂ R later after := by
  induction before generalizing xs with
  | nil =>
      obtain ⟨x, later, hxy, hlater, rfl⟩ := List.forall₂_cons_right_iff.mp h
      exact ⟨[], x, later, rfl, .nil, hxy, hlater⟩
  | cons first before ih =>
      obtain ⟨x', rest, hfirst, hrest, rfl⟩ := List.forall₂_cons_right_iff.mp h
      obtain ⟨earlier, x, later, rfl, hearlier, hxy, hlater⟩ := ih hrest
      exact ⟨x' :: earlier, x, later, rfl, .cons hfirst hearlier, hxy, hlater⟩

end Related

namespace Logical

def Constant.variable (constant : Constant) : Variable :=
  .scalar ⟨constant.name, constant.type, .constant constant.value⟩

def StashAction.lowered (action : StashAction) : Physical.StashAction :=
  ⟨action.mapName, action.key.variableName, Build.valueVariableName action.mapName,
    action.cond⟩

def DeleteAction.lowered (action : DeleteAction) : Physical.DeleteAction :=
  ⟨action.mapName, action.key.variableName⟩

def OutputAction.lowered (action : OutputAction) : Physical.OutputAction :=
  ⟨action.outputName, Build.valueVariableName action.outputName⟩

def RecordAction.stash? : RecordAction → Option Physical.StashAction
  | stash action => some action.lowered
  | output _ => none

def RecordAction.output? : RecordAction → Option Physical.OutputAction
  | stash _ => none
  | output action => some action.lowered

def Probe.declaredNames (probe : Probe) : List String :=
  probe.consts.map (·.name) ++ probe.args.map (·.id) ++ probe.retVals.map (·.id) ++
    probe.mapVals.flatMap (·.valueIds) ++ probe.latency.toList.map (·.id)

theorem Probe.mem_declaredNames {probe : Probe} {id : String} : id ∈ probe.declaredNames ↔
    (∃ constant ∈ probe.consts, constant.name = id) ∨ (∃ arg ∈ probe.args, arg.id = id) ∨
      (∃ value ∈ probe.retVals, value.id = id) ∨
      (∃ value ∈ probe.mapVals, id ∈ value.valueIds) ∨
      ∃ latency ∈ probe.latency, latency.id = id := by
  simp [declaredNames]

end Logical

def FunctionLatency.variable (latency : FunctionLatency) : Variable :=
  .scalar ⟨latency.id, .int64,
    .binary .sub Builtin.ktime.variableName startTimeVariable⟩

theorem Scope.probe_of_addLatency {latency : FunctionLatency} {s t : Scope}
    (h : (addLatency latency).runFrom s = (.ok (), t)) :
    t.probe = { s.probe with
      vars := s.probe.vars ++ [latency.variable]
      latency := some latency } := by
  obtain ⟨_, u, hvariable, h⟩ := Step.runFrom_bind_ok.mp h
  cases h
  simp only [probe_of_addVariable hvariable]
  rfl

inductive ReadBlock (value : Logical.MapValue) : List Variable → Prop where
  | unpack (layout : Physical.Struct) (h : value.valueIds.length ≤ layout.fields.length) :
      ReadBlock value (Build.readVariables value layout)

def scalarNames (vars : List Variable) : List String :=
  (vars.filter (·.scalarType?.isSome)).map Variable.name

section ScalarNames

variable {vars : List Variable} {name : String}

@[simp] theorem scalarNames_append (first second : List Variable) :
    scalarNames (first ++ second) = scalarNames first ++ scalarNames second := by
  simp [scalarNames]

theorem scalarNames_flatten (blocks : List (List Variable)) :
    scalarNames blocks.flatten = (blocks.map scalarNames).flatten := by
  induction blocks with
  | nil => rfl
  | cons block rest ih => simp [ih]

theorem mem_scalarNames :
    name ∈ scalarNames vars ↔ ∃ v ∈ vars, v.scalarType?.isSome ∧ v.name = name := by
  simp [scalarNames, and_assoc]

theorem scalarNames_subset (vars : List Variable) :
    scalarNames vars ⊆ vars.map Variable.name :=
  (List.filter_sublist.map Variable.name).subset

theorem Physical.Probe.exists_scalarType? {probe : Physical.Probe}
    (h : (probe.vars.map Variable.name).Nodup) (hname : name ∈ scalarNames probe.vars) :
    ∃ type, probe.scalarType? name = some type := by
  obtain ⟨v, hv, htype, rfl⟩ := mem_scalarNames.mp hname
  obtain ⟨type, htype⟩ := Option.isSome_iff_exists.mp htype
  exact ⟨type, Option.bind_eq_some_iff.mpr
    ⟨v, (findVar?_eq_some_iff h).mpr ⟨hv, rfl⟩, htype⟩⟩

end ScalarNames

theorem Chain.id_mem {id base : String} {block : List Variable} (h : Chain id base block) :
    id ∈ scalarNames block := by
  induction h with
  | value => simp [scalarNames, Variable.scalarType?, Variable.name]
  | cross _ _ _ _ ih => exact List.mem_cons_of_mem _ ih

theorem ResultBlock.id_mem {id : String} {language : Language} {block : List Variable}
    (h : ResultBlock id language block) : id ∈ scalarNames block := by
  cases h with
  | onStack chain => exact chain.id_mem
  | register _ type => simp [scalarNames, Variable.scalarType?, Variable.name]
  | fromRegister _ chain => exact chain.id_mem

theorem ReadBlock.ids_subset {value : Logical.MapValue} {block : List Variable}
    (h : ReadBlock value block) : value.valueIds ⊆ scalarNames block := by
  obtain ⟨layout, hlength⟩ := h
  intro id hid
  have hids : (value.valueIds.zip layout.fields).map Prod.fst = value.valueIds :=
    List.map_fst_zip hlength
  rw [← hids] at hid
  obtain ⟨⟨id, field⟩, hmem, rfl⟩ := List.mem_map.mp hid
  exact mem_scalarNames.mpr
    ⟨_, List.mem_cons_of_mem _ (List.mem_map_of_mem hmem), rfl, rfl⟩

/-! ## Mirrored probes -/

namespace Physical.Probe

/-- The variables of `input` in blocks, one for each of its entries, in their order. -/
structure Blocks (language : Language) (outputFields : String → List String)
    (input : Logical.Probe) (vars : List Variable)
    (args results reads : List (List Variable)) : Prop where
  chains : List.Forall₂ (fun arg => Chain arg.id stackPointerVariable) input.args args
  resultBlocks :
    List.Forall₂ (fun value => ResultBlock value.id language) input.retVals results
  readBlocks : List.Forall₂ ReadBlock input.mapVals reads
  eq_append : vars = Scope.specialVariables language input.tracepoint ++
    input.consts.map (·.variable) ++ args.flatten ++ results.flatten ++ reads.flatten ++
    input.latency.toList.map (·.variable) ++
    input.recordActions.map fun action => .struct (action.record language outputFields)

/-- What a probe is lowered to: one thing for each entry, in the same order. -/
structure Mirrors (language : Language) (outputFields : String → List String)
    (input : Logical.Probe) (probe : Probe) : Prop where
  name : probe.name = input.name
  tracepoint : probe.tracepoint = input.tracepoint
  latency : probe.latency = input.latency
  printks : probe.printks = input.printks
  stashes : probe.stashes = input.stashes.map (·.lowered)
  deletes : probe.deletes = input.deletes.map (·.lowered)
  outputs : probe.outputs = input.outputs.map (·.lowered)
  vars : ∃ args results reads,
    Blocks language outputFields input probe.vars args results reads
  distinct : (probe.vars.map Variable.name).Nodup
  /-- Each requested name stands for exactly one variable. -/
  named : ∀ id ∈ input.declaredNames, ∃! v, v ∈ probe.vars ∧ v.name = id

theorem Blocks.scalarName_mem {language : Language} {outputFields : String → List String}
    {input : Logical.Probe} {vars : List Variable}
    {args results reads : List (List Variable)}
    (h : Blocks language outputFields input vars args results reads) {id : String}
    (hid : id ∈ input.declaredNames) : id ∈ scalarNames vars := by
  -- A name of a block is a name of the list that the blocks are joined to.
  have hjoin : ∀ {blocks : List (List Variable)} {block}, block ∈ blocks →
      id ∈ scalarNames block → id ∈ scalarNames blocks.flatten := by
    intro blocks block hblock hname
    rw [scalarNames_flatten, List.mem_flatten]
    exact ⟨_, List.mem_map_of_mem hblock, hname⟩
  rw [h.eq_append]
  simp only [scalarNames_append, List.mem_append]
  rcases Logical.Probe.mem_declaredNames.mp hid with ⟨constant, hconstant, rfl⟩ |
    ⟨arg, harg, rfl⟩ | ⟨value, hvalue, rfl⟩ | ⟨value, hvalue, hid⟩ | ⟨latency, hlatency, rfl⟩
  · have hvariable := mem_scalarNames.mpr
      ⟨constant.variable, List.mem_map_of_mem hconstant, rfl, rfl⟩
    exact .inl (.inl (.inl (.inl (.inl (.inr hvariable)))))
  · obtain ⟨block, hblock, hchain⟩ := exists_related_right h.chains harg
    exact .inl (.inl (.inl (.inl (.inr (hjoin hblock hchain.id_mem)))))
  · obtain ⟨block, hblock, hresult⟩ := exists_related_right h.resultBlocks hvalue
    exact .inl (.inl (.inl (.inr (hjoin hblock hresult.id_mem))))
  · obtain ⟨block, hblock, hread⟩ := exists_related_right h.readBlocks hvalue
    exact .inl (.inl (.inr (hjoin hblock (hread.ids_subset hid))))
  · have hvariable := mem_scalarNames.mpr ⟨latency.variable,
      List.mem_map_of_mem (Option.mem_toList.mpr hlatency), rfl, rfl⟩
    exact .inl (.inr hvariable)

end Physical.Probe

namespace Build

variable {setting : Setting} {language : Language} {input : Logical.Probe} {b c : Build}

theorem blocks_of_valueParts
    (h : (Step.sequence (valueParts setting input)).runFrom b = (.ok (), c)) :
    ∃ args results,
      List.Forall₂ (fun arg => Chain arg.id stackPointerVariable) input.args args ∧
      List.Forall₂ (fun value => ResultBlock value.id setting.language) input.retVals
        results ∧
      b.scope.Adds c.scope
        (input.consts.map (·.variable) ++ args.flatten ++ results.flatten) := by
  obtain ⟨b₂, h, hresults⟩ := Step.runFrom_sequence_append_ok.mp h
  obtain ⟨b₁, hconsts, hargs⟩ := Step.runFrom_sequence_append_ok.mp h
  have hconstant : ∀ (constant : Logical.Constant) (b c : Build),
      ((onScope ∘ Scope.addConstant) constant).runFrom b = (.ok (), c) →
        ∃ block, [constant.variable] = block ∧ b.scope.Adds c.scope block :=
    fun _ _ _ h => ⟨_, rfl, Scope.adds_of_addVariable (runFrom_onScope_ok.mp h).1⟩
  obtain ⟨consts, hconsts, hadds⟩ :=
    Scope.exists_blocks_of_run Build.scope hconstant hconsts
  obtain ⟨args, hargs, hadds₁⟩ := Scope.exists_blocks_of_run Build.scope
    (fun arg b c h => chain_of_lowerArgument (runFrom_onScope_ok.mp h).1) hargs
  obtain ⟨results, hresults, hadds₂⟩ := Scope.exists_blocks_of_run Build.scope
    (fun value b c h => block_of_lowerReturnValue (runFrom_onScope_ok.mp h).1) hresults
  rw [← List.forall₂_map_left_iff (f := fun constant : Logical.Constant =>
    [constant.variable]), List.forall₂_eq_eq_eq] at hconsts
  subst hconsts
  refine ⟨args, results, hargs, hresults, ?_⟩
  rw [← List.flatMap_def, ← List.map_eq_flatMap] at hadds
  exact (hadds.trans hadds₁).trans hadds₂

theorem blocks_of_readParts
    (h : (Step.sequence (readParts input)).runFrom b = (.ok (), c)) :
    ∃ reads, List.Forall₂ ReadBlock input.mapVals reads ∧
      b.scope.Adds c.scope reads.flatten := by
  refine Scope.exists_blocks_of_run Build.scope (fun value b c h => ?_) h
  obtain ⟨layout, hlayout, -, -, hprobe⟩ := readMap_ok h
  obtain ⟨-, -, hlength⟩ := readLayout_ok hlayout
  exact ⟨_, .unpack layout hlength, hprobe⟩

theorem probe_of_latencyParts
    (h : (Step.sequence (latencyParts input)).runFrom b = (.ok (), c))
    (hb : b.scope.probe.latency = none) :
    c.scope.probe = { b.scope.probe with
      vars := b.scope.probe.vars ++ input.latency.toList.map (·.variable)
      latency := input.latency } := by
  unfold latencyParts at h
  cases hlatency : input.latency with
  | none =>
      rw [hlatency] at h
      cases h
      rw [Option.toList_none, List.map_nil, List.append_nil, ← hb]
  | some latency =>
      rw [hlatency] at h
      simp only [Option.toList_some, List.map_cons, List.map_nil, Function.comp_apply,
        Step.sequence_singleton] at h
      exact Scope.probe_of_addLatency (runFrom_onScope_ok.mp h).1

theorem probe_of_recordAction {action : RecordAction} (hb : b.scope.Consistent)
    (h : (action.step language).runFrom b = (.ok (), c)) :
    c.scope.probe = { b.scope.probe with
      vars := b.scope.probe.vars ++
        [.struct (action.record language b.workspace.outputFields)]
      stashes := b.scope.probe.stashes ++ action.stash?.toList
      outputs := b.scope.probe.outputs ++ action.output?.toList } := by
  obtain ⟨written, hwrites⟩ := writes_of_recordAction hb h
  have hvars := hwrites.vars
  cases action with
  | stash action =>
      obtain ⟨index, map, record, -, -, -, hprobe⟩ := stash_ok h
      rw [← hvars, hprobe]
      simp [RecordAction.stash?, RecordAction.output?, Logical.StashAction.lowered]
  | output action =>
      obtain ⟨index, buffer, event, -, -, hprobe⟩ := output_ok h
      rw [← hvars, hprobe]
      simp [RecordAction.stash?, RecordAction.output?, Logical.OutputAction.lowered]

theorem probe_of_recordActions {actions : List RecordAction} (hb : b.scope.Consistent)
    (h : (Step.sequence (actions.map fun action => action.step language)).runFrom b =
      (.ok (), c)) :
    c.scope.Consistent ∧ c.workspace.outputFields = b.workspace.outputFields ∧
      c.scope.probe = { b.scope.probe with
        vars := b.scope.probe.vars ++ actions.map fun action =>
          .struct (action.record language b.workspace.outputFields)
        stashes := b.scope.probe.stashes ++ actions.filterMap (·.stash?)
        outputs := b.scope.probe.outputs ++ actions.filterMap (·.output?) } := by
  induction actions generalizing b with
  | nil =>
      cases h
      exact ⟨hb, rfl, by simp⟩
  | cons action rest ih =>
      obtain ⟨d, haction, hrest⟩ := Step.runFrom_sequence_cons_ok.mp h
      obtain ⟨written, hwrites⟩ := writes_of_recordAction hb haction
      obtain ⟨hc, hfields, hprobe⟩ := ih (hwrites.consistent hb) hrest
      rw [hwrites.outputFields] at hfields hprobe
      refine ⟨hc, hfields, ?_⟩
      rw [hprobe, probe_of_recordAction hb haction]
      cases action <;> simp [RecordAction.stash?, RecordAction.output?]

theorem probe_of_deletes {actions : List Logical.DeleteAction}
    (h : (Step.sequence (actions.map delete)).runFrom b = (.ok (), c)) :
    c.workspace = b.workspace ∧
      c.scope.probe = { b.scope.probe with
        deletes := b.scope.probe.deletes ++ actions.map (·.lowered) } := by
  induction actions generalizing b with
  | nil =>
      cases h
      exact ⟨rfl, by simp⟩
  | cons action rest ih =>
      obtain ⟨d, hdelete, hrest⟩ := Step.runFrom_sequence_cons_ok.mp h
      obtain ⟨-, -, hworkspace, hprobe⟩ := delete_ok hdelete
      obtain ⟨hworkspace', hprobe'⟩ := ih hrest
      refine ⟨hworkspace'.trans hworkspace, ?_⟩
      rw [hprobe', hprobe]
      simp [Logical.DeleteAction.lowered]

theorem probe_of_writeParts (hb : b.scope.Consistent)
    (h : (Step.sequence (writeParts language input)).runFrom b = (.ok (), c)) :
    c.scope.probe = { b.scope.probe with
      vars := b.scope.probe.vars ++ input.recordActions.map fun action =>
        .struct (action.record language b.workspace.outputFields)
      stashes := b.scope.probe.stashes ++ input.stashes.map (·.lowered)
      deletes := b.scope.probe.deletes ++ input.deletes.map (·.lowered)
      outputs := b.scope.probe.outputs ++ input.outputs.map (·.lowered)
      printks := input.printks } := by
  obtain ⟨b₃, h, hprintks⟩ := Step.runFrom_sequence_append_ok.mp h
  obtain ⟨b₂, h, houtputs⟩ := Step.runFrom_sequence_append_ok.mp h
  obtain ⟨b₁, hstashes, hdeletes⟩ := Step.runFrom_sequence_append_ok.mp h
  have hstash : input.stashes.map stash =
      (input.stashes.map RecordAction.stash).map fun action => action.step language := by
    rw [List.map_map]
    rfl
  have houtput : input.outputs.map (output language) =
      (input.outputs.map RecordAction.output).map fun action => action.step language := by
    rw [List.map_map]
    rfl
  rw [hstash] at hstashes
  rw [houtput] at houtputs
  obtain ⟨hb₁, hfields₁, hprobe₁⟩ := probe_of_recordActions hb hstashes
  have hb₂ : b₂.scope.Consistent := (Step.Keeps.sequence (R := Extends fun _ => True)
    fun part hpart => by
      obtain ⟨action, -, rfl⟩ := List.mem_map.mp hpart
      exact keeps_delete action).of_run hdeletes |>.consistent hb₁
  obtain ⟨hworkspace₂, hprobe₂⟩ := probe_of_deletes hdeletes
  obtain ⟨-, -, hprobe₃⟩ := probe_of_recordActions hb₂ houtputs
  simp only [Step.sequence_singleton] at hprintks
  cases hprintks
  rw [hworkspace₂, hfields₁] at hprobe₃
  simp [hprobe₃, hprobe₂, hprobe₁, Logical.Probe.recordActions, List.filterMap_map,
    Function.comp_def, RecordAction.stash?, RecordAction.output?]

end Build

/-! ## Lowered probes -/

namespace Workspace

variable {facts : Facts} {language : Language} {input : Logical.Probe} {w v : Workspace}
  {probe : Physical.Probe}

theorem mirrors_of_lowerProbe (h : w.lowerProbe facts language input = (.ok probe, v)) :
    probe.Mirrors language w.outputFields input := by
  obtain ⟨scope, hconsistent, hscope⟩ := consistent_of_lowerProbe h
  obtain ⟨setting, c, hsetting, hrun, rfl, -⟩ := lowerProbe_ok.mp h
  obtain ⟨-, rfl, -, -⟩ := Setting.ofSymbol_ok.mp hsetting
  obtain ⟨b₄, hbefore, hwrite⟩ := Step.runFrom_sequence_append_ok.mp hrun
  obtain ⟨b₃, hfirst, hlatency⟩ := Step.runFrom_sequence_append_ok.mp hbefore
  obtain ⟨b₂, hdeclare, hread⟩ := Step.runFrom_sequence_append_ok.mp hfirst
  obtain ⟨b₁, hspecial, hvalue⟩ := Step.runFrom_sequence_cons_ok.mp hdeclare
  have hb₁ := Scope.probe_of_addSpecialVariables (Build.runFrom_onScope_ok.mp hspecial).1
  obtain ⟨args, results, hargs, hresults, hb₂⟩ := Build.blocks_of_valueParts hvalue
  obtain ⟨reads, hreads, hb₃⟩ := Build.blocks_of_readParts hread
  unfold Scope.Adds at hb₂ hb₃
  have hb₄ := Build.probe_of_latencyParts hlatency (by rw [hb₃, hb₂, hb₁]; rfl)
  -- The parts before the writes leave the workspace as it is.
  have hkeeps : ∀ part ∈ Build.declareParts setting input ++ Build.readParts input ++
      Build.latencyParts input, Step.Keeps (Build.OnWorkspace Eq) part := by
    intro part hpart
    rcases List.mem_append.mp hpart with hpart | hpart
    · rcases List.mem_append.mp hpart with hpart | hpart
      · exact Build.keeps_declareParts_onWorkspace hpart
      · exact Build.keeps_readParts_onWorkspace hpart
    · exact Build.keeps_latencyParts_onWorkspace hpart
  have hworkspace : w = b₄.workspace := (Step.Keeps.sequence hkeeps).of_run hbefore
  have hb₄' := (Build.extends_of_run (List.subset_append_left _ _) hbefore).consistent
    (Scope.consistent_start _ _)
  have hc := Build.probe_of_writeParts hb₄' hwrite
  rw [← hworkspace, hb₄, hb₃, hb₂, hb₁] at hc
  have hblocks : Physical.Probe.Blocks setting.language w.outputFields input
      c.scope.probe.vars args results reads := by
    refine ⟨hargs, hresults, hreads, ?_⟩
    rw [hc]
    simp [Scope.start]
  have hdistinct : (c.scope.probe.vars.map Variable.name).Nodup := hscope ▸ hconsistent.nodup
  refine ⟨?_, ?_, ?_, ?_, ?_, ?_, ?_, ⟨args, results, reads, hblocks⟩, hdistinct, ?_⟩
  iterate 7 · simp [hc, Scope.start]
  · intro id hid
    obtain ⟨v, hv, hname⟩ := List.mem_map.mp
      (scalarNames_subset _ (hblocks.scalarName_mem hid))
    refine ⟨v, ⟨hv, hname⟩, fun v' hv' => ?_⟩
    exact List.inj_on_of_nodup_map hdistinct hv'.1 hv (hv'.2.trans hname.symm)

theorem forall₂_of_run {I : Workspace → Prop} {P : Logical.Probe → Physical.Probe → Prop}
    (hstep : ∀ input w v probe, I w → w.lowerProbe facts language input = (.ok probe, v) →
      I (v.addProbe probe) ∧ P input probe)
    {probes : List Logical.Probe} {u : Workspace} (hw : I w) (hnone : w.program.probes = [])
    (h : (generateProbes facts language probes).runFrom w = (.ok (), u)) :
    List.Forall₂ P probes u.program.probes := by
  have hu : I u ∧ List.Forall₂ P probes u.program.probes :=
    invariant_of_run (I := fun done w => I w ∧ List.Forall₂ P done w.program.probes)
      (fun done input w v probe hw hlowered => by
        obtain ⟨hv, hprobe⟩ := hstep input w v probe hw.1 hlowered
        have hsame : v.program.probes = w.program.probes := sameProbes_of_lowerProbe hlowered
        refine ⟨hv, ?_⟩
        simp only [addProbe, hsame]
        exact List.rel_append hw.2 (.cons hprobe .nil))
      ⟨hw, hnone ▸ .nil⟩ h
  exact hu.2

end Workspace

def Logical.Output.buffer (output : Logical.Output) : PerfBuffer :=
  ⟨output.name, output.fields, structTypeName output.name⟩

/-- Everything of `input` stands in the program, in the same order and once. -/
structure Physical.Program.Mirrors (target : Target) (input : Logical.Program)
    (program : Physical.Program) : Prop where
  target : program.target = target
  language : program.language = input.language
  mapNames : program.maps.map (·.name) = input.maps.map (·.name)
  outputs : program.outputs = input.outputs.map (·.buffer)
  probes : List.Forall₂ (fun logical probe =>
    probe.Mirrors input.language input.outputFields logical) input.probes program.probes

namespace Workspace

theorem program_declareMaps (w : Workspace) (maps : List MapDecl) :
    (w.declareMaps maps).program = { w.program with maps := w.program.maps ++ maps } := by
  induction maps generalizing w with
  | nil => simp [declareMaps]
  | cons map rest ih =>
      exact (ih (w.declareMap map)).trans (by simp [declareMap])

theorem program_declareOutputs (w : Workspace) (outputs : List Logical.Output) :
    (w.declareOutputs outputs).program =
      { w.program with outputs := w.program.outputs ++ outputs.map (·.buffer) } := by
  induction outputs generalizing w with
  | nil => simp [declareOutputs]
  | cons output rest ih =>
      exact (ih (w.declareOutput output)).trans
        (by simp [declareOutput, Logical.Output.buffer])

theorem program_ofProgram (target : Target) (input : Logical.Program) :
    (ofProgram target input).program =
      { target, language := input.language, maps := input.maps
        outputs := input.outputs.map (·.buffer) } := by
  unfold ofProgram
  rw [program_declareOutputs, program_declareMaps]
  rfl

theorem located_ofProgram (target : Target) (input : Logical.Program) :
    (ofProgram target input).Located := by
  unfold ofProgram declareOutputs declareMaps
  refine List.foldlRecOn input.outputs _ ?_ fun w hw output _ => hw.declareOutput output
  exact List.foldlRecOn input.maps _ (Located.start _) fun w hw map _ => hw.declareMap map

structure Mirroring (target : Target) (input : Logical.Program)
    (done : List Logical.Probe) (w : Workspace) : Prop where
  located : w.Located
  outputFields : w.outputFields = input.outputFields
  mirrors : w.program.Mirrors target { input with probes := done }

theorem mirroring_ofProgram (target : Target) (input : Logical.Program) :
    (ofProgram target input).Mirroring target input [] := by
  refine ⟨located_ofProgram target input, outputFields_ofProgram target input, ?_⟩
  rw [program_ofProgram]
  exact ⟨rfl, rfl, rfl, rfl, .nil⟩

section Lowered

variable {facts : Facts} {input : Logical.Probe} {w v : Workspace} {probe : Physical.Probe}

theorem SameDeclarations.outputFields_eq (h : w.SameDeclarations v) :
    v.outputFields = w.outputFields := by
  funext name
  rw [Workspace.outputFields_eq, Workspace.outputFields_eq, h.outputs, h.outputPositions]

theorem Mirroring.lowerProbe {target : Target} {program : Logical.Program}
    {done : List Logical.Probe} (hw : w.Mirroring target program done)
    (h : w.lowerProbe facts program.language input = (.ok probe, v)) :
    (v.addProbe probe).Mirroring target program (done ++ [input]) := by
  have hstate : (w.lowerProbe facts program.language input).2 = v := by rw [h]
  obtain ⟨hlocated, hsame⟩ := hstate ▸ hw.located.lowerProbe input
  have hprobe := mirrors_of_lowerProbe h
  rw [hw.outputFields] at hprobe
  refine ⟨hlocated.addProbe probe, hsame.outputFields_eq.trans hw.outputFields, ?_⟩
  refine ⟨hsame.target.trans hw.mirrors.target, hsame.language.trans hw.mirrors.language,
    hsame.mapNames.trans hw.mirrors.mapNames, hsame.outputs.trans hw.mirrors.outputs, ?_⟩
  simp only [addProbe, hsame.probes]
  exact List.rel_append hw.mirrors.probes (.cons hprobe .nil)

end Lowered

end Workspace

/--
A lowered program holds what was requested and nothing else: its target, language,
maps and outputs, and for each probe its values in blocks and its actions, all of them in
the order of the request.
-/
theorem requests_mirrored {facts : Facts} {deployment : Logical.Deployment}
    {program : Physical.Program} (h : lowerDeployment facts deployment = .ok program) :
    ∃ input, deployment.tracepoints = [input] ∧ program.Mirrors deployment.target input := by
  obtain ⟨input, u, hinput, hrun, rfl⟩ := lowerDeployment_ok.mp h
  have hstart := Workspace.mirroring_ofProgram deployment.target input
  have hu := Workspace.invariant_of_run
    (I := fun done w => w.Mirroring deployment.target input done)
    (fun _ _ _ _ _ hw hprobe => hw.lowerProbe hprobe) hstart hrun
  exact ⟨input, hinput, hu.mirrors⟩

theorem requests_mirrored_callProgram :
    callProgram.Mirrors ⟨"/usr/bin/server"⟩ callInput := by
  obtain ⟨input, hinput, hmirrors⟩ := requests_mirrored lowerDeployment_callTracing
  cases hinput
  exact hmirrors

end ProbeLowering
