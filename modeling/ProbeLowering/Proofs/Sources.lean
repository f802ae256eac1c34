import ProbeLowering.Proofs.RegisterResult
import ProbeLowering.Proofs.ReservedNames

/-!
# Sources of scalars

What a scalar is computed from says which entry of the request it belongs to.  Loads belong
to expressions, the difference to the latency, and the return register to its special
variable or to a result of base kind.  A result of base kind is taken from the register in
every probe, whereas one of pointer kind asks for the special variable, which only return
probes have (`return_register_sources`).
-/

namespace ProbeLowering

open DebugInfo
open Physical (Variable ScalarVariable)

namespace Chain

variable {id base : String} {block : List Variable}

theorem exists_memory (h : Chain id base block) {v : Variable} (hv : v ∈ block) :
    ∃ name type start offset, v = .scalar ⟨name, type, .memory start offset⟩ := by
  induction h with
  | value base type offset => exact ⟨id, type, base, offset, List.mem_singleton.mp hv⟩
  | cross base steps offset _ ih =>
      rcases List.mem_cons.mp hv with rfl | hv
      · exact ⟨_, _, _, _, rfl⟩
      · exact ih hv

theorem exists_value (h : Chain id base block) :
    ∃ type start offset, .scalar ⟨id, type, .memory start offset⟩ ∈ block := by
  induction h with
  | value base type offset => exact ⟨type, base, offset, List.mem_cons_self⟩
  | cross _ _ _ _ ih =>
      obtain ⟨type, start, offset, hvalue⟩ := ih
      exact ⟨type, start, offset, List.mem_cons_of_mem _ hvalue⟩

end Chain

namespace Scope

variable {language : Language} {tracepoint : TracePoint}

theorem returnRegister_mem_special_iff :
    .scalar ⟨returnRegisterVariable, .voidPointer, .register .rc⟩ ∈
        specialVariables language tracepoint ↔
      tracepoint.isReturn ∧ language.returnsInRegister := by
  simp [specialVariables, List.mem_ite_nil_right]

theorem eq_returnRegister_of_source {x : ScalarVariable}
    (hx : .scalar x ∈ specialVariables language tracepoint)
    (hsource : x.source = .register .rc) :
    x = ⟨returnRegisterVariable, .voidPointer, .register .rc⟩ := by
  rcases special_cases hx with hx | hx | ⟨helper, type, hx⟩ <;> cases hx
  · cases hsource
  · rfl
  · cases hsource

end Scope

namespace Physical.Probe

variable {language : Language} {outputFields : String → List String}
  {input : Logical.Probe} {vars : List Variable} {args results reads : List (List Variable)}

theorem Blocks.source_cases (h : Blocks language outputFields input vars args results reads)
    {x : ScalarVariable} (hx : .scalar x ∈ vars) :
    .scalar x ∈ Scope.specialVariables language input.tracepoint ∨
      (∃ literal, x.source = .constant literal) ∨
      (∃ base offset, x.source = .memory base offset) ∨
      (x.source = .register .rc ∧ language.returnsInRegister ∧
        ∃ value ∈ input.retVals, value.id = x.name) ∨
      ∃ latency ∈ input.latency, .scalar x = latency.variable := by
  have hsplit := h.eq_append ▸ hx
  simp only [List.mem_append, List.mem_map, List.mem_flatten, Option.mem_toList] at hsplit
  rcases hsplit with (((((hx | ⟨constant, -, hconstant⟩) | ⟨block, hblock, hx⟩) |
    ⟨block, hblock, hx⟩) | ⟨block, hblock, hx⟩) | ⟨latency, hlatency, heq⟩) |
    ⟨action, -, hrecord⟩
  · exact .inl hx
  · cases hconstant
    exact .inr (.inl ⟨constant.value, rfl⟩)
  · obtain ⟨arg, -, hchain⟩ := exists_related_left h.chains hblock
    obtain ⟨name, type, base, offset, heq⟩ := hchain.exists_memory hx
    cases heq
    exact .inr (.inr (.inl ⟨base, offset, rfl⟩))
  · obtain ⟨value, hvalue, hresult⟩ := exists_related_left h.resultBlocks hblock
    cases hresult with
    | register hlanguage type =>
        cases List.mem_singleton.mp hx
        exact .inr (.inr (.inr (.inl ⟨rfl, hlanguage, value, hvalue, rfl⟩)))
    | onStack hchain | fromRegister _ hchain =>
        obtain ⟨name, type, base, offset, heq⟩ := hchain.exists_memory hx
        cases heq
        exact .inr (.inr (.inl ⟨base, offset, rfl⟩))
  · obtain ⟨value, -, layout, -⟩ := exists_related_left h.readBlocks hblock
    simp [Build.readVariables] at hx
  · exact .inr (.inr (.inr (.inr ⟨latency, hlatency, heq.symm⟩)))
  · cases hrecord

end Physical.Probe

def Physical.Probe.ReadsRegister (facts : Facts) (language : Language)
    (input : Logical.Probe) (probe : Physical.Probe) : Prop :=
  ∀ x, .scalar x ∈ probe.vars →
    (x.source = .register .rc ↔ language.returnsInRegister ∧
      (x.name = returnRegisterVariable ∧ input.tracepoint.isReturn ∨
        (∃ value ∈ input.retVals, value.id = x.name) ∧ ∃ typeName,
          facts.retval input.tracepoint.symbol = .ok ⟨.base, typeName⟩))

namespace Workspace

variable {facts : Facts} {language : Language} {input : Logical.Probe} {w v : Workspace}
  {probe : Physical.Probe}

theorem results_of_lowerProbe (h : w.lowerProbe facts language input = (.ok probe, v))
    (hlanguage : language.returnsInRegister) :
    ∃ retval, facts.retval input.tracepoint.symbol = .ok retval ∧
      ∀ value ∈ input.retVals,
        (retval.kind = .base ∧
          ∃ type, .scalar ⟨value.id, type, .register .rc⟩ ∈ probe.vars) ∨
        (retval.kind = .pointer ∧ ∃ type base offset,
          .scalar ⟨value.id, type, .memory base offset⟩ ∈ probe.vars) := by
  obtain ⟨setting, b, hsetting, hrun, rfl, -⟩ := lowerProbe_ok.mp h
  obtain ⟨rfl, rfl, -, hretval⟩ := Setting.ofSymbol_ok.mp hsetting
  refine ⟨setting.retval, hretval, fun value hvalue => ?_⟩
  have hmem : Build.onScope (lowerReturnValue setting value) ∈
      Build.valueParts setting input := by
    simp only [Build.valueParts, List.mem_append, List.mem_map]
    exact .inr ⟨value, hvalue, rfl⟩
  obtain ⟨s, t, t', -, -, hstep, hextends⟩ := Build.exists_run_of_mem_valueParts hmem hrun
  obtain ⟨hscope, -⟩ := Build.runFrom_onScope_ok.mp hstep
  obtain ⟨expr, -, -, hregister⟩ := lowerReturnValue_register_ok hlanguage hscope
  have hsubset : t'.scope.probe.vars ⊆ b.scope.probe.vars := hextends.vars_prefix.subset
  rcases lowerRegisterReturn_ok hregister with ⟨hkind, type, hadds⟩ |
    ⟨hkind, block, hchain, hadds⟩
  · exact .inl ⟨hkind, type, hsubset (hadds.subset List.mem_cons_self)⟩
  · obtain ⟨type, base, offset, hloaded⟩ := hchain.exists_value
    exact .inr ⟨hkind, type, base, offset, hsubset (hadds.subset hloaded)⟩

theorem readsRegister_of_lowerProbe (h : w.lowerProbe facts language input = (.ok probe, v)) :
    probe.ReadsRegister facts language input := by
  intro x hx
  have hmirrors := mirrors_of_lowerProbe h
  obtain ⟨args, results, reads, hblocks⟩ := hmirrors.vars
  have hunique : ∀ {y : ScalarVariable}, .scalar y ∈ probe.vars → y.name = x.name → y = x := by
    intro y hy hname
    cases List.inj_on_of_nodup_map hmirrors.distinct hy hx hname
    rfl
  constructor
  · intro hsource
    rcases hblocks.source_cases hx with hspecial | ⟨literal, hliteral⟩ |
      ⟨base, offset, hmemory⟩ | ⟨-, hlanguage, value, hvalue, hname⟩ |
      ⟨latency, -, hlatency⟩
    · obtain rfl := Scope.eq_returnRegister_of_source hspecial hsource
      obtain ⟨hreturn, hlanguage⟩ := Scope.returnRegister_mem_special_iff.mp hspecial
      exact ⟨hlanguage, .inl ⟨rfl, hreturn⟩⟩
    · rw [hsource] at hliteral
      cases hliteral
    · rw [hsource] at hmemory
      cases hmemory
    · obtain ⟨⟨kind, typeName⟩, hretval, hresults⟩ := results_of_lowerProbe h hlanguage
      rcases hresults value hvalue with ⟨rfl, -⟩ | ⟨-, type, base, offset, hloaded⟩
      · exact ⟨hlanguage, .inr ⟨⟨value, hvalue, hname⟩, typeName, hretval⟩⟩
      · obtain rfl := hunique hloaded hname
        cases hsource
    · cases hlatency
      cases hsource
  · rintro ⟨hlanguage, ⟨hname, hreturn⟩ | ⟨⟨value, hvalue, hname⟩, typeName, hbase⟩⟩
    · have hregister := hmirrors.special_subset
        (Scope.returnRegister_mem_special_iff.mpr ⟨hreturn, hlanguage⟩)
      exact hunique hregister hname.symm ▸ rfl
    · obtain ⟨retval, hretval, hresults⟩ := results_of_lowerProbe h hlanguage
      obtain rfl : _ = retval := Except.ok.inj (hbase.symm.trans hretval)
      rcases hresults value hvalue with ⟨-, type, hregister⟩ | ⟨hkind, -⟩
      · exact hunique hregister hname ▸ rfl
      · cases hkind

end Workspace

/--
The return register is read by the special variable of return probes and by the results
of base kind of all probes, only in C and C++.
-/
theorem return_register_sources {facts : Facts} {deployment : Logical.Deployment}
    {program : Physical.Program} (h : lowerDeployment facts deployment = .ok program) :
    ∃ input, deployment.tracepoints = [input] ∧
      List.Forall₂ (fun logical probe => probe.tracepoint = logical.tracepoint ∧
        probe.ReadsRegister facts input.language logical) input.probes program.probes := by
  obtain ⟨input, u, hinput, hrun, rfl⟩ := lowerDeployment_ok.mp h
  refine ⟨input, hinput, Workspace.forall₂_of_run (I := fun _ => True)
    (fun logical w v probe _ hlowered => ⟨trivial, ?_, ?_⟩) trivial (by simp) hrun⟩
  · exact (Workspace.mirrors_of_lowerProbe hlowered).tracepoint
  · exact Workspace.readsRegister_of_lowerProbe hlowered

def countFacts : Facts :=
  (({} : Snapshot).withRetval "count" ⟨.base, "long int"⟩).facts

def countEntry : Logical.Probe where
  name := "count_entry"
  tracepoint := ⟨"count", .entry⟩
  retVals := [⟨"n", "$0"⟩]

def countReturn : Logical.Probe where
  name := "count_return"
  tracepoint := ⟨"count", .onReturn⟩
  retVals := [⟨"n", "$0"⟩]

def countInput : Logical.Program where
  language := .c
  probes := [countEntry, countReturn]

def countProgram : Physical.Program :=
  (lowerDeployment countFacts ⟨⟨"/usr/bin/server"⟩, [countInput]⟩).toOption.getD {}

theorem return_register_sources_countProgram :
    lowerDeployment countFacts ⟨⟨"/usr/bin/server"⟩, [countInput]⟩ = .ok countProgram ∧
      List.Forall₂ (fun logical probe => probe.tracepoint = logical.tracepoint ∧
        probe.ReadsRegister countFacts .c logical) countInput.probes countProgram.probes := by
  have hlowered : lowerDeployment countFacts ⟨⟨"/usr/bin/server"⟩, [countInput]⟩ =
      .ok countProgram := eq_ok_of_isSome _ (by decide +kernel)
  obtain ⟨input, hinput, hprobes⟩ := return_register_sources hlowered
  cases hinput
  exact ⟨hlowered, hprobes⟩

theorem exists_register_read_on_entry :
    lowerDeployment countFacts ⟨⟨"/usr/bin/server"⟩, [countInput]⟩ = .ok countProgram ∧
      ∃ probe ∈ countProgram.probes, ¬ probe.tracepoint.isReturn ∧
        .scalar ⟨"n", .long, .register .rc⟩ ∈ probe.vars :=
  ⟨eq_ok_of_isSome _ (by decide +kernel), by decide +kernel⟩

end ProbeLowering
