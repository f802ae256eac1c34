import ProbeLowering.Proofs.Sources

/-!
# Names that are copied

The latency of a probe, the conditions of its stashes and its debugging prints name
variables that are not looked up.  The present time is always there.  Any other name stands
for a scalar of the probe if it is a special variable, the request gives it to a value, or
a pointer on the way to such a value is loaded under it, and in no other case
(`copied_names_resolve`).
-/

namespace ProbeLowering

open DebugInfo
open Physical (Variable ScalarVariable)

theorem Scope.name_mem_reservedNames {language : Language} {tracepoint : TracePoint}
    {v : Variable} (hv : v ∈ specialVariables language tracepoint) :
    v.name ∈ reservedNames := by
  rcases special_cases hv with rfl | rfl | ⟨helper, type, rfl⟩
  · simp [Variable.name, reservedNames, reservedSources]
  · simp [Variable.name, reservedNames, reservedSources]
  · exact List.mem_map_of_mem (mem_reservedSources helper)

theorem pointerName_ne_startTime (id : String) (steps : List PathStep) :
    pointerName id steps ≠ startTimeVariable := by
  intro h
  have hends : "_X_".toList <:+ (pointerName id steps).toList := by
    simp [pointerName_eq_append]
  rw [h] at hends
  exact absurd hends (by decide)

def Logical.Probe.untilLatency (probe : Logical.Probe) : Logical.Probe where
  name := probe.name
  tracepoint := probe.tracepoint
  consts := probe.consts
  args := probe.args
  retVals := probe.retVals
  mapVals := probe.mapVals

namespace Physical.Probe

variable {language : Language} {outputFields : String → List String}
  {input : Logical.Probe} {vars : List Variable} {args results reads : List (List Variable)}

def PointerTo (input : Logical.Probe) (vars : List Variable) (name : String) : Prop :=
  ∃ id ∈ input.declaredNames, ∃ steps, name = pointerName id steps ∧
    ∃ x, .scalar x ∈ vars ∧ x.name = name

theorem Blocks.mem_scalarNames_iff
    (h : Blocks language outputFields input vars args results reads) {name : String} :
    name ∈ scalarNames vars ↔
      name ∈ (Scope.specialVariables language input.tracepoint).map Variable.name ∨
        name ∈ input.declaredNames ∨ PointerTo input vars name := by
  constructor
  · intro hname
    obtain ⟨v, hv, htype, rfl⟩ := mem_scalarNames.mp hname
    cases h.origin hv with
    | special hspecial => exact .inl (List.mem_map_of_mem hspecial)
    | @scalar x id declared hx =>
        rcases hx.name with rfl | ⟨steps, hsteps⟩
        · exact .inr (.inl declared)
        · exact .inr (.inr ⟨id, declared, steps, hsteps, x, hv, rfl⟩)
    | handle => cases htype
    | member declared => exact .inr (.inl declared)
    | record => cases htype
  · rintro (hspecial | hdeclared | ⟨-, -, -, -, x, hx, rfl⟩)
    · obtain ⟨v, hv, rfl⟩ := List.mem_map.mp hspecial
      obtain ⟨x, rfl, -⟩ := Scope.exists_scalar_of_mem_special hv
      refine mem_scalarNames.mpr ⟨_, ?_, rfl, rfl⟩
      rw [h.eq_append]
      simp only [List.mem_append, hv, true_or]
    · exact h.scalarName_mem hdeclared
    · exact mem_scalarNames.mpr ⟨_, hx, rfl, rfl⟩

/-- What a probe copies without a look at its variables, and which names stand for scalars. -/
structure CopiesNames (language : Language) (input : Logical.Probe) (probe : Probe) :
    Prop where
  /-- The only difference is the latency, and it may lack the time that it starts from. -/
  differences : ∀ x op lhs rhs, .scalar x ∈ probe.vars → x.source = .binary op lhs rhs →
    input.latency = some ⟨x.name⟩ ∧ lhs = Builtin.ktime.variableName ∧
      rhs = startTimeVariable ∧
      ∃ before after, probe.vars = before ++ .scalar x :: after ∧
        lhs ∈ scalarNames before ∧
        (rhs ∈ scalarNames before ↔ rhs ∈ input.untilLatency.declaredNames)
  conditions : probe.stashes.map (·.cond) = input.stashes.map (·.cond)
  printks : probe.printks = input.printks
  names : ∀ name, name ∈ scalarNames probe.vars ↔
    name ∈ (Scope.specialVariables language input.tracepoint).map Variable.name ∨
      name ∈ input.declaredNames ∨ PointerTo input probe.vars name

theorem Blocks.untilLatency
    (h : Blocks language outputFields input vars args results reads)
    {latency : FunctionLatency} (hlatency : input.latency = some latency) :
    ∃ before after, vars = before ++ latency.variable :: after ∧
      Blocks language outputFields input.untilLatency before args results reads := by
  refine ⟨Scope.specialVariables language input.tracepoint ++ input.consts.map (·.variable) ++
      args.flatten ++ results.flatten ++ reads.flatten,
    input.recordActions.map fun action => .struct (action.record language outputFields),
    ?_, h.chains, h.resultBlocks, h.readBlocks, ?_⟩
  · simp [h.eq_append, hlatency]
  · simp [Logical.Probe.untilLatency, Logical.Probe.recordActions]

theorem Blocks.startTime_mem_iff
    (h : Blocks language outputFields input vars args results reads) :
    startTimeVariable ∈ scalarNames vars ↔ startTimeVariable ∈ input.declaredNames := by
  rw [h.mem_scalarNames_iff]
  constructor
  · rintro (hspecial | hdeclared | ⟨id, -, steps, hname, -⟩)
    · obtain ⟨v, hv, hname⟩ := List.mem_map.mp hspecial
      have hreserved := Scope.name_mem_reservedNames hv
      rw [hname] at hreserved
      exact absurd hreserved (by decide)
    · exact hdeclared
    · exact absurd hname.symm (pointerName_ne_startTime id steps)
  · exact fun hdeclared => .inr (.inl hdeclared)

theorem Mirrors.copiesNames {probe : Probe} (h : probe.Mirrors language outputFields input) :
    probe.CopiesNames language input := by
  obtain ⟨args, results, reads, hblocks⟩ := h.vars
  refine ⟨?_, ?_, h.printks, fun name => hblocks.mem_scalarNames_iff⟩
  · intro x op lhs rhs hx hsource
    rcases hblocks.source_cases hx with hspecial | ⟨literal, hliteral⟩ |
      ⟨base, offset, hmemory⟩ | ⟨hregister, -⟩ | ⟨latency, hlatency, heq⟩
    · rcases Scope.special_cases hspecial with heq | heq | ⟨_, _, heq⟩ <;> cases heq <;>
        cases hsource
    · simp [hsource] at hliteral
    · simp [hsource] at hmemory
    · simp [hsource] at hregister
    · obtain ⟨before, after, hsplit, hbefore⟩ := hblocks.untilLatency hlatency
      cases heq
      cases hsource
      refine ⟨hlatency, rfl, rfl, before, after, hsplit, ?_, hbefore.startTime_mem_iff⟩
      rw [hbefore.mem_scalarNames_iff]
      exact .inl (by simp [Scope.specialVariables, Variable.name])
  · rw [h.stashes, List.map_map]
    rfl

end Physical.Probe

/--
In a lowered program the difference of a latency starts from the present time of its probe
and from an earlier scalar if the request gives one the name of the entry time, conditions
and prints are those of the request, and a name stands for a scalar if and only if the
probe has a special variable, a value or a pointer to a value of this name.
-/
theorem copied_names_resolve {facts : Facts} {deployment : Logical.Deployment}
    {program : Physical.Program} (h : lowerDeployment facts deployment = .ok program) :
    ∃ input, deployment.tracepoints = [input] ∧
      List.Forall₂ (fun logical probe => probe.CopiesNames input.language logical)
        input.probes program.probes := by
  obtain ⟨input, u, hinput, hrun, rfl⟩ := lowerDeployment_ok.mp h
  refine ⟨input, hinput, Workspace.forall₂_of_run (I := fun _ => True)
    (fun logical w v probe _ hlowered => ⟨trivial, ?_⟩) trivial (by simp) hrun⟩
  exact (Workspace.mirrors_of_lowerProbe hlowered).copiesNames

theorem copied_names_resolve_callReturn :
    ∃ probe ∈ callProgram.probes, callReturn.latency = some ⟨"nanos"⟩ ∧
      probe.CopiesNames .go callReturn := by
  obtain ⟨input, hinput, hprobes⟩ := copied_names_resolve lowerDeployment_callTracing
  cases hinput
  have hmem : callReturn ∈ callInput.probes := by simp [callInput]
  obtain ⟨probe, hprobe, hcopies⟩ := exists_related_right hprobes hmem
  exact ⟨probe, hprobe, rfl, hcopies⟩

def unresolvedInput : Logical.Program where
  language := .go
  maps := [{ name := "calls" }]
  probes := [
    { name := "unresolved"
      tracepoint := ⟨"main.Serve", .entry⟩
      latency := some ⟨"nanos"⟩
      stashes := [
        { mapName := "calls", key := .goid, valueVariables := ["time_"]
          cond := { op := .equal, vars := ["missing"] } }]
      printks := [.scalar "absent"] }]

def unresolvedProgram : Physical.Program :=
  (lowerDeployment callFacts ⟨⟨"/usr/bin/server"⟩, [unresolvedInput]⟩).toOption.getD {}

theorem exists_names_unresolved :
    lowerDeployment callFacts ⟨⟨"/usr/bin/server"⟩, [unresolvedInput]⟩ =
        .ok unresolvedProgram ∧
      ∃ probe ∈ unresolvedProgram.probes,
        .scalar ⟨"nanos", .int64, .binary .sub "time_" "start_ktime_ns"⟩ ∈ probe.vars ∧
        "start_ktime_ns" ∉ probe.vars.map Variable.name ∧
        (∃ action ∈ probe.stashes, "missing" ∈ action.cond.vars ∧
          "missing" ∉ probe.vars.map Variable.name) ∧
        .scalar "absent" ∈ probe.printks ∧ "absent" ∉ probe.vars.map Variable.name :=
  ⟨eq_ok_of_isSome _ (by decide +kernel), by decide +kernel⟩

end ProbeLowering
