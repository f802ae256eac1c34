import ProbeLowering.Proofs.Correspondence
import ProbeLowering.Proofs.References

/-!
# Reserved names

Registers and built-in values have variables of fixed names.  Lowering finds them by their
names alone, and a request may give such a name to a value of its own where the probe has no
special variable of this name: `goid_` outside Go and `rc_` where no result is in a register.
Everywhere else a reserved name means what it says (`reserved_names_mean_builtins`).
-/

namespace ProbeLowering

open DebugInfo
open Physical (Variable ScalarSource)
open Logical (RecordAction)

def reservedSources : List (String × ScalarSource) :=
  [(stackPointerVariable, .register .sp), (returnRegisterVariable, .register .rc),
    (Builtin.tgid.variableName, .builtin .tgid),
    (Builtin.tgidPid.variableName, .builtin .tgidPid),
    (Builtin.tgidStartTime.variableName, .builtin .tgidStartTime),
    (Builtin.ktime.variableName, .builtin .ktime),
    (Builtin.goid.variableName, .builtin .goid)]

def reservedNames : List String := reservedSources.map Prod.fst

theorem mem_reservedSources (helper : Builtin) :
    (helper.variableName, .builtin helper) ∈ reservedSources := by
  cases helper <;> simp [reservedSources]

theorem eq_source_of_mem {name : String} {source source' : ScalarSource}
    (h : (name, source) ∈ reservedSources) (h' : (name, source') ∈ reservedSources) :
    source = source' := by
  have hdistinct : (reservedSources.map Prod.fst).Nodup := by decide
  exact (Prod.mk.inj (List.inj_on_of_nodup_map hdistinct h h' rfl)).2

theorem append_not_mem_reservedNames {name suffix : String}
    (hsuffix : suffix ∈ ["_X_", "_ptr", "_value"]) : name ++ suffix ∉ reservedNames := by
  intro h
  have hends : suffix.toList <:+ (name ++ suffix).toList := by simp
  have hnone : ∀ suffix ∈ ["_X_", "_ptr", "_value"], ∀ reserved ∈ reservedNames,
      ¬ suffix.toList <:+ reserved.toList := by decide
  exact hnone suffix hsuffix _ h hends

theorem pointerName_eq_append (id : String) (steps : List PathStep) :
    pointerName id steps = AccessPath.display ⟨id, steps⟩ ++ "_X_" := by
  simp [pointerName, AccessPath.display, PathStep.display, String.join_append,
    String.append_assoc]

theorem pointerName_not_mem_reservedNames (id : String) (steps : List PathStep) :
    pointerName id steps ∉ reservedNames := by
  rw [pointerName_eq_append]
  exact append_not_mem_reservedNames (by simp)

/-- The request takes a reserved name for itself that the probe has no special variable of. -/
def Logical.Probe.Takes (language : Language) (input : Logical.Probe) (name : String) : Prop :=
  name ∈ input.declaredNames ∧
    (name = Builtin.goid.variableName ∧ language ≠ .go ∨
      name = returnRegisterVariable ∧
        ¬ (input.tracepoint.isReturn && language.returnsInRegister))

namespace Scope

variable {language : Language} {tracepoint : TracePoint}

variable (language tracepoint) in
theorem special_or_absent {name : String} (h : name ∈ reservedNames) :
    name ∈ (specialVariables language tracepoint).map Variable.name ∨
      name = Builtin.goid.variableName ∧ language ≠ .go ∨
      name = returnRegisterVariable ∧
        ¬ (tracepoint.isReturn && language.returnsInRegister) := by
  simp only [reservedNames, reservedSources, List.map_cons, List.map_nil, List.mem_cons,
    List.not_mem_nil, or_false] at h
  rcases h with rfl | rfl | rfl | rfl | rfl | rfl | rfl
  · exact .inl (by simp [specialVariables, Variable.name])
  · by_cases hreturn : tracepoint.isReturn && language.returnsInRegister
    · exact .inl (by simp [specialVariables, hreturn, Variable.name])
    · exact .inr (.inr ⟨rfl, hreturn⟩)
  iterate 4 · exact .inl (by simp [specialVariables, Variable.name])
  · by_cases hgo : language = .go
    · exact .inl (by simp [specialVariables, hgo, Variable.name])
    · exact .inr (.inl ⟨rfl, hgo⟩)

theorem special_cases {v : Variable} (hv : v ∈ specialVariables language tracepoint) :
    v = .scalar ⟨stackPointerVariable, .voidPointer, .register .sp⟩ ∨
      v = .scalar ⟨returnRegisterVariable, .voidPointer, .register .rc⟩ ∨
      ∃ helper type, v = .scalar ⟨Builtin.variableName helper, type, .builtin helper⟩ := by
  simp only [specialVariables, List.mem_append, List.mem_cons, List.not_mem_nil, or_false,
    List.mem_ite_nil_right] at hv
  rcases hv with ((rfl | rfl | rfl | rfl | rfl) | ⟨-, rfl⟩) | ⟨-, rfl⟩
  · exact .inl rfl
  · exact .inr (.inr ⟨.tgid, _, rfl⟩)
  · exact .inr (.inr ⟨.tgidPid, _, rfl⟩)
  · exact .inr (.inr ⟨.tgidStartTime, _, rfl⟩)
  · exact .inr (.inr ⟨.ktime, _, rfl⟩)
  · exact .inr (.inr ⟨.goid, _, rfl⟩)
  · exact .inr (.inl rfl)

theorem eq_of_mem_special {v : Variable} (hv : v ∈ specialVariables language tracepoint)
    {source : ScalarSource} (h : (v.name, source) ∈ reservedSources) :
    ∃ type, v = .scalar ⟨v.name, type, source⟩ := by
  rcases special_cases hv with rfl | rfl | ⟨helper, type, rfl⟩
  · have hsource : source = .register .sp :=
      eq_source_of_mem h (by simp [reservedSources, Variable.name])
    exact ⟨.voidPointer, hsource ▸ rfl⟩
  · have hsource : source = .register .rc :=
      eq_source_of_mem h (by simp [reservedSources, Variable.name])
    exact ⟨.voidPointer, hsource ▸ rfl⟩
  · have hsource : source = .builtin helper := eq_source_of_mem h (mem_reservedSources helper)
    exact ⟨type, hsource ▸ rfl⟩

theorem exists_scalar_of_mem_special {v : Variable}
    (hv : v ∈ specialVariables language tracepoint) :
    ∃ x, v = .scalar x ∧ ∀ base offset, x.source ≠ .memory base offset := by
  rcases special_cases hv with rfl | rfl | ⟨helper, type, rfl⟩ <;> exact ⟨_, rfl, by simp⟩

theorem stackPointer_mem_special :
    .scalar ⟨stackPointerVariable, .voidPointer, .register .sp⟩ ∈
      specialVariables language tracepoint := by
  simp [specialVariables]

theorem eq_returnRegister_of_mem_special {v : Variable}
    (hv : v ∈ specialVariables language tracepoint)
    (hname : v.name = returnRegisterVariable) :
    v = .scalar ⟨returnRegisterVariable, .voidPointer, .register .rc⟩ := by
  rcases special_cases hv with rfl | rfl | ⟨helper, type, rfl⟩
  · exact absurd hname (by decide)
  · rfl
  · cases helper <;>
      simp [Variable.name, Builtin.variableName, returnRegisterVariable] at hname

end Scope

/-! ## Where the variables of a probe come from -/

/--
Called `id` or a pointer on the way to it.  If it is loaded, then from one of the `bases`
or from a pointer among the variables.
-/
structure Physical.ScalarVariable.LeadsTo (id : String) (bases : List String)
    (vars : List Variable) (x : Physical.ScalarVariable) : Prop where
  name : x.name = id ∨ ∃ steps, x.name = pointerName id steps
  base : ∀ base offset, x.source = .memory base offset →
    base ∈ bases ∨ ∃ source, .scalar ⟨base, .voidPointer, source⟩ ∈ vars

theorem Physical.ScalarVariable.LeadsTo.mono {id : String} {bases bases' : List String}
    {vars vars' : List Variable} {x : Physical.ScalarVariable} (h : x.LeadsTo id bases vars)
    (hbases : bases ⊆ bases') (hvars : vars ⊆ vars') : x.LeadsTo id bases' vars' where
  name := h.name
  base base offset hsource := (h.base base offset hsource).imp (fun hbase => hbases hbase)
    fun ⟨source, hpointer⟩ => ⟨source, hvars hpointer⟩

theorem Chain.leadsTo {id base : String} {block : List Variable} (h : Chain id base block)
    {v : Variable} (hv : v ∈ block) : ∃ x, v = .scalar x ∧ x.LeadsTo id [base] block := by
  induction h with
  | value base type offset =>
      obtain rfl := List.mem_singleton.mp hv
      refine ⟨_, rfl, .inl rfl, ?_⟩
      rintro _ _ ⟨⟩
      exact .inl List.mem_cons_self
  | cross base steps offset _ ih =>
      rcases List.mem_cons.mp hv with rfl | hv
      · refine ⟨_, rfl, .inr ⟨steps, rfl⟩, ?_⟩
        rintro _ _ ⟨⟩
        exact .inl List.mem_cons_self
      · obtain ⟨x, rfl, hname, hbase⟩ := ih hv
        refine ⟨x, rfl, hname, fun start offset hsource => .inr ?_⟩
        -- The rest of the chain starts at the pointer that is loaded first.
        rcases hbase start offset hsource with hstart | ⟨source, hpointer⟩
        · obtain rfl := List.mem_singleton.mp hstart
          exact ⟨_, List.mem_cons_self⟩
        · exact ⟨source, List.mem_cons_of_mem _ hpointer⟩

def rootNames : List String := [stackPointerVariable, returnRegisterVariable]

theorem ResultBlock.leadsTo {id : String} {language : Language} {block : List Variable}
    (h : ResultBlock id language block) {v : Variable} (hv : v ∈ block) :
    ∃ x, v = .scalar x ∧ x.LeadsTo id rootNames block := by
  cases h with
  | onStack chain =>
      obtain ⟨x, rfl, hx⟩ := chain.leadsTo hv
      exact ⟨x, rfl, hx.mono (by simp [rootNames]) (List.Subset.refl _)⟩
  | register _ type =>
      obtain rfl := List.mem_singleton.mp hv
      exact ⟨_, rfl, .inl rfl, by rintro _ _ ⟨⟩⟩
  | fromRegister _ chain =>
      obtain ⟨x, rfl, hx⟩ := chain.leadsTo hv
      exact ⟨x, rfl, hx.mono (by simp [rootNames]) (List.Subset.refl _)⟩

namespace Physical.Probe

inductive Origin (language : Language) (input : Logical.Probe) (vars : List Variable) :
    Variable → Prop where
  | special {v : Variable} (h : v ∈ Scope.specialVariables language input.tracepoint) :
      Origin language input vars v
  | scalar {x : ScalarVariable} {id : String} (declared : id ∈ input.declaredNames)
      (h : x.LeadsTo id rootNames vars) : Origin language input vars (.scalar x)
  | handle {value : Logical.MapValue} (entry : value ∈ input.mapVals) (structType : String) :
      Origin language input vars (.map ⟨Build.mapHandleName value.mapName, structType,
        value.mapName, value.key.variableName⟩)
  | member {x : MemberVariable} (declared : x.name ∈ input.declaredNames) :
      Origin language input vars (.member x)
  | record {x : StructVariable} (owner : String)
      (h : x.name = Build.valueVariableName owner) : Origin language input vars (.struct x)

variable {language : Language} {outputFields : String → List String}
  {input : Logical.Probe} {vars : List Variable} {args results reads : List (List Variable)}

theorem Blocks.origin (h : Blocks language outputFields input vars args results reads)
    {v : Variable} (hv : v ∈ vars) : Origin language input vars v := by
  have hargs : args.flatten ⊆ vars := by
    rw [h.eq_append]
    intro x hx
    simp only [List.mem_append, hx, or_true, true_or]
  have hresults : results.flatten ⊆ vars := by
    rw [h.eq_append]
    intro x hx
    simp only [List.mem_append, hx, or_true, true_or]
  have hsplit := h.eq_append ▸ hv
  simp only [List.mem_append, List.mem_map, List.mem_flatten, Option.mem_toList] at hsplit
  rcases hsplit with (((((hv | ⟨constant, hentry, rfl⟩) | ⟨block, hblock, hv⟩) |
    ⟨block, hblock, hv⟩) | ⟨block, hblock, hv⟩) | ⟨latency, hentry, rfl⟩) |
    ⟨action, -, rfl⟩
  · exact .special hv
  · exact .scalar (Logical.Probe.mem_declaredNames.mpr (.inl ⟨constant, hentry, rfl⟩))
      ⟨.inl rfl, by rintro _ _ ⟨⟩⟩
  · obtain ⟨arg, harg, hchain⟩ := exists_related_left h.chains hblock
    obtain ⟨x, rfl, hx⟩ := hchain.leadsTo hv
    have hid := Logical.Probe.mem_declaredNames.mpr (.inr (.inl ⟨arg, harg, rfl⟩))
    exact .scalar hid (hx.mono (by simp [rootNames]) fun y hy =>
      hargs (List.mem_flatten.mpr ⟨block, hblock, hy⟩))
  · obtain ⟨value, hvalue, hresult⟩ := exists_related_left h.resultBlocks hblock
    obtain ⟨x, rfl, hx⟩ := hresult.leadsTo hv
    have hid := Logical.Probe.mem_declaredNames.mpr (.inr (.inr (.inl ⟨value, hvalue, rfl⟩)))
    exact .scalar hid (hx.mono (List.Subset.refl _) fun y hy =>
      hresults (List.mem_flatten.mpr ⟨block, hblock, hy⟩))
  · obtain ⟨value, hvalue, layout, -⟩ := exists_related_left h.readBlocks hblock
    rcases List.mem_cons.mp hv with rfl | hv
    · exact .handle hvalue _
    · obtain ⟨⟨id, field⟩, hmem, rfl⟩ := List.mem_map.mp hv
      have hid := (List.of_mem_zip hmem).1
      exact .member (Logical.Probe.mem_declaredNames.mpr
        (.inr (.inr (.inr (.inl ⟨value, hvalue, hid⟩)))))
  · exact .scalar (Logical.Probe.mem_declaredNames.mpr
      (.inr (.inr (.inr (.inr ⟨latency, hentry, rfl⟩))))) ⟨.inl rfl, by rintro _ _ ⟨⟩⟩
  · exact .record action.owner rfl

namespace Origin

variable {v : Variable} (h : Origin language input vars v)

include h

theorem special_or_declared (hname : v.name ∈ reservedNames) :
    v ∈ Scope.specialVariables language input.tracepoint ∨ v.name ∈ input.declaredNames := by
  cases h with
  | special hv => exact .inl hv
  | @scalar x id declared hx =>
      -- A pointer on the way to a value is not called by a reserved name.
      rcases hx.name with rfl | ⟨steps, hsteps⟩
      · exact .inr declared
      · have hpointer : pointerName id steps ∈ reservedNames := hsteps ▸ hname
        exact absurd hpointer (pointerName_not_mem_reservedNames id steps)
  | handle => exact absurd hname (append_not_mem_reservedNames (by simp))
  | member declared => exact .inr declared
  | @record x owner hx =>
      have hvalue : Build.valueVariableName owner ∈ reservedNames := hx ▸ hname
      exact absurd hvalue (append_not_mem_reservedNames (by simp))

theorem special_or_takes
    (hunique : ∀ id ∈ input.declaredNames, ∃! v, v ∈ vars ∧ v.name = id)
    (hspecial : Scope.specialVariables language input.tracepoint ⊆ vars) (hv : v ∈ vars)
    (hname : v.name ∈ reservedNames) :
    v ∈ Scope.specialVariables language input.tracepoint ∨ input.Takes language v.name := by
  rcases h.special_or_declared hname with hv | hdeclared
  · exact .inl hv
  · rcases Scope.special_or_absent language input.tracepoint hname with hpresent | habsent
    · obtain ⟨x, hx, hxname⟩ := List.mem_map.mp hpresent
      have heq : v = x := (hunique _ hdeclared).unique ⟨hv, rfl⟩ ⟨hspecial hx, hxname⟩
      exact .inl (heq ▸ hx)
    · exact .inr ⟨hdeclared, habsent⟩

omit h in
theorem base_of_memory {x : ScalarVariable} (h : Origin language input vars (.scalar x))
    {base : String} {offset : Int} (hsource : x.source = .memory base offset) :
    base ∈ rootNames ∨ ∃ source, .scalar ⟨base, .voidPointer, source⟩ ∈ vars := by
  cases h with
  | special hv =>
      obtain ⟨_, ⟨⟩, hnone⟩ := Scope.exists_scalar_of_mem_special hv
      exact absurd hsource (hnone base offset)
  | scalar _ hx => exact hx.base base offset hsource

omit h in
theorem exists_read {handle : MapVariable} (h : Origin language input vars (.map handle)) :
    ∃ value ∈ input.mapVals, handle.mapName = value.mapName ∧
      handle.keyVariable = value.key.variableName := by
  cases h with
  | special hv =>
      obtain ⟨_, ⟨⟩, -⟩ := Scope.exists_scalar_of_mem_special hv
  | @handle value entry structType => exact ⟨value, entry, rfl, rfl⟩

end Origin

/-! ## Probes -/

/-- `key` is the variable of `helper`, and it holds this value if the name is not taken. -/
def HoldsKey (language : Language) (input : Logical.Probe) (probe : Probe)
    (helper : Builtin) (key : String) : Prop :=
  key = helper.variableName ∧
    ((∃ type, .scalar ⟨key, type, .builtin helper⟩ ∈ probe.vars) ∨ input.Takes language key)

/-- Reserved names that the request does not take mean registers and built-in values. -/
structure KeepsReserved (language : Language) (input : Logical.Probe) (probe : Probe) :
    Prop where
  sources : ∀ v ∈ probe.vars, ∀ source, (v.name, source) ∈ reservedSources →
    (∃ type, v = .scalar ⟨v.name, type, source⟩) ∨ input.Takes language v.name
  reads : ∀ handle, .map handle ∈ probe.vars → ∃ value ∈ input.mapVals,
    handle.mapName = value.mapName ∧
      probe.HoldsKey language input value.key handle.keyVariable
  stashes : List.Forall₂ (fun logical action => action.mapName = logical.mapName ∧
    probe.HoldsKey language input logical.key action.keyVariable) input.stashes probe.stashes
  deletes : List.Forall₂ (fun logical action => action.mapName = logical.mapName ∧
    probe.HoldsKey language input logical.key action.keyVariable) input.deletes probe.deletes
  bases : ∀ x base offset, .scalar x ∈ probe.vars → x.source = .memory base offset →
    (∃ source, .scalar ⟨base, .voidPointer, source⟩ ∈ probe.vars) ∨
      input.Takes language base

theorem Mirrors.special_subset {probe : Probe} (h : probe.Mirrors language outputFields input) :
    Scope.specialVariables language input.tracepoint ⊆ probe.vars := by
  obtain ⟨args, results, reads, hblocks⟩ := h.vars
  rw [hblocks.eq_append]
  intro x hx
  simp only [List.mem_append, hx, true_or]

theorem Mirrors.special_or_takes {probe : Probe}
    (h : probe.Mirrors language outputFields input) {v : Variable} (hv : v ∈ probe.vars)
    (hname : v.name ∈ reservedNames) :
    v ∈ Scope.specialVariables language input.tracepoint ∨ input.Takes language v.name := by
  obtain ⟨args, results, reads, hblocks⟩ := h.vars
  exact (hblocks.origin hv).special_or_takes h.named h.special_subset hv hname

theorem Mirrors.keepsReserved {program : Program} {probe : Probe}
    (h : probe.Mirrors language outputFields input) (hresolved : probe.Resolved program) :
    probe.KeepsReserved language input := by
  obtain ⟨args, results, reads, hblocks⟩ := h.vars
  have hspecial := h.special_subset
  have hsources : ∀ v ∈ probe.vars, ∀ source, (v.name, source) ∈ reservedSources →
      (∃ type, v = .scalar ⟨v.name, type, source⟩) ∨ input.Takes language v.name := by
    intro v hv source hsource
    rcases h.special_or_takes hv (List.mem_map_of_mem hsource) with hv | htakes
    · exact .inl (Scope.eq_of_mem_special hv hsource)
    · exact .inr htakes
  -- A key that is there is the variable of its built-in value or taken.
  have hkey : ∀ helper, Builtin.variableName helper ∈ probe.vars.map Variable.name →
      probe.HoldsKey language input helper helper.variableName := by
    intro helper hmem
    obtain ⟨v, hv, hname⟩ := List.mem_map.mp hmem
    refine ⟨rfl, ?_⟩
    rw [← hname]
    refine (hsources v hv (.builtin helper) (hname ▸ mem_reservedSources helper)).imp_left ?_
    rintro ⟨type, hv'⟩
    exact ⟨type, hv' ▸ hv⟩
  refine ⟨hsources, ?_, ?_, ?_, ?_⟩
  · intro handle hhandle
    obtain ⟨before, after, hsplit⟩ := List.append_of_mem hhandle
    obtain ⟨hmem, -, -⟩ := hresolved.vars before _ after hsplit
    obtain ⟨value, hvalue, hmap, hname⟩ := (hblocks.origin hhandle).exists_read
    refine ⟨value, hvalue, hmap, ?_⟩
    rw [hname] at hmem ⊢
    refine hkey value.key ?_
    rw [hsplit, List.map_append]
    exact List.mem_append_left _ hmem
  · rw [h.stashes, List.forall₂_map_right_iff, List.forall₂_same]
    intro action haction
    have hmem : action.lowered ∈ probe.stashes := h.stashes ▸ List.mem_map_of_mem haction
    exact ⟨rfl, hkey action.key (hresolved.stashes _ hmem).1⟩
  · rw [h.deletes, List.forall₂_map_right_iff, List.forall₂_same]
    intro action haction
    have hmem : action.lowered ∈ probe.deletes := h.deletes ▸ List.mem_map_of_mem haction
    exact ⟨rfl, hkey action.key (hresolved.deletes _ hmem).1⟩
  · intro x base offset hx hsource
    rcases (hblocks.origin hx).base_of_memory hsource with hroot | hpointer
    · obtain ⟨before, after, hsplit⟩ := List.append_of_mem hx
      obtain ⟨y, hy, rfl⟩ := hresolved.vars before _ after hsplit base offset hsource
      have hy : Variable.scalar y ∈ probe.vars := hsplit ▸ List.mem_append_left _ hy
      rcases List.mem_cons.mp hroot with hsp | hrc
      · exact .inl ⟨_, hsp ▸ hspecial Scope.stackPointer_mem_special⟩
      · obtain hrc := List.mem_singleton.mp hrc
        have hname : y.name ∈ reservedNames := by simp [hrc, reservedNames, reservedSources]
        rcases h.special_or_takes hy hname with hy' | htakes
        · have heq := Scope.eq_returnRegister_of_mem_special hy' hrc
          exact .inl ⟨_, hrc ▸ heq ▸ hy⟩
        · exact .inr htakes
    · exact .inl hpointer

end Physical.Probe

namespace Workspace

structure KeepsReserved (language : Language) (done : List Logical.Probe) (w : Workspace) :
    Prop where
  located : w.Located
  probes : List.Forall₂ (fun logical probe => probe.KeepsReserved language logical) done
    w.program.probes

theorem KeepsReserved.lowerProbe {facts : Facts} {language : Language}
    {done : List Logical.Probe} {input : Logical.Probe} {w v : Workspace}
    {probe : Physical.Probe} (hw : w.KeepsReserved language done)
    (h : w.lowerProbe facts language input = (.ok probe, v)) :
    (v.addProbe probe).KeepsReserved language (done ++ [input]) := by
  have hprobes : v.program.probes = w.program.probes := sameProbes_of_lowerProbe h
  have hprobe : probe.KeepsReserved language input :=
    (mirrors_of_lowerProbe h).keepsReserved (resolved_of_lowerProbe hw.located h)
  refine ⟨(keepsNames_of_lowerProbe hw.located h).1.addProbe probe, ?_⟩
  simp only [addProbe, hprobes]
  exact List.rel_append hw.probes (.cons hprobe .nil)

end Workspace

/--
In a lowered program a variable with the name of a register or built-in value has this
value, keys are the variables of the values that are asked for, and loads start at
pointers, all as far as the request does not take the name for itself.
-/
theorem reserved_names_mean_builtins {facts : Facts} {deployment : Logical.Deployment}
    {program : Physical.Program} (h : lowerDeployment facts deployment = .ok program) :
    ∃ input, deployment.tracepoints = [input] ∧
      List.Forall₂ (fun logical probe => probe.KeepsReserved input.language logical)
        input.probes program.probes := by
  obtain ⟨input, u, hinput, hrun, rfl⟩ := lowerDeployment_ok.mp h
  have hstart : (Workspace.ofProgram deployment.target input).KeepsReserved input.language [] :=
    ⟨Workspace.located_ofProgram deployment.target input, by simp⟩
  have hu := Workspace.invariant_of_run
    (I := fun done w => w.KeepsReserved input.language done)
    (fun _ _ _ _ _ hw hprobe => hw.lowerProbe hprobe) hstart hrun
  exact ⟨input, hinput, hu.probes⟩

theorem reserved_names_mean_builtins_callProgram :
    List.Forall₂ (fun logical probe => probe.KeepsReserved .go logical)
      [callEntry, callReturn] callProgram.probes := by
  obtain ⟨input, hinput, hprobes⟩ := reserved_names_mean_builtins lowerDeployment_callTracing
  cases hinput
  exact hprobes

def shadowedInput : Logical.Program where
  language := .c
  maps := [{ name := "calls" }]
  probes := [
    { name := "shadowed"
      tracepoint := ⟨"main.Serve", .entry⟩
      consts := [⟨"goid_", .int64, "7"⟩]
      stashes := [{ mapName := "calls", key := .goid, valueVariables := ["time_"] }] }]

def shadowedProgram : Physical.Program :=
  (lowerDeployment callFacts ⟨⟨"/usr/bin/server"⟩, [shadowedInput]⟩).toOption.getD {}

theorem exists_constant_key :
    lowerDeployment callFacts ⟨⟨"/usr/bin/server"⟩, [shadowedInput]⟩ =
        .ok shadowedProgram ∧
      ∃ probe ∈ shadowedProgram.probes, ∃ action ∈ probe.stashes,
        probe.findVar? action.keyVariable =
          some (.scalar ⟨Builtin.goid.variableName, .int64, .constant "7"⟩) :=
  ⟨eq_ok_of_isSome _ (by decide +kernel), by decide +kernel⟩

end ProbeLowering
