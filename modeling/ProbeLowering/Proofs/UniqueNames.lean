import Mathlib.Data.List.Nodup
import ProbeLowering.Proofs.Registry

/-!
# Names of the variables of a probe

A probe is lowered against two records of its variables that are never compared
while it is lowered.  They agree wherever its lowering is stopped, after a part
that succeeded or after one that failed half way, and the names of the variables
of a lowered probe are distinct, so that a name stands for one variable
(`variables_agree_with_symbols`).
-/

namespace ProbeLowering

open DebugInfo
open Physical (Variable)

namespace Scope

/-- The variables of the probe and the symbol table say the same of every name. -/
structure Agrees (scope : Scope) : Prop where
  nodup : (scope.probe.vars.map Variable.name).Nodup
  contains_iff : ∀ name, scope.symbols.contains name = true ↔
    name ∈ scope.probe.vars.map Variable.name
  size_eq : scope.symbols.size = scope.probe.vars.length
  scalar_iff : ∀ v ∈ scope.probe.vars, ∀ type,
    scope.symbols.symbol? v.name = some (.scalar type) ↔
      (∃ x, v = .scalar x ∧ x.type = type) ∨ ∃ x, v = .member x ∧ x.type = type
  aggregate_iff : ∀ v ∈ scope.probe.vars,
    scope.symbols.symbol? v.name = some .aggregate ↔
      (∃ x, v = .map x) ∨ ∃ x, v = .struct x

theorem Consistent.symbol?_name {scope : Scope} (h : scope.Consistent)
    {v : Variable} (hv : v ∈ scope.probe.vars) :
    scope.symbols.symbol? v.name = some (symbolOf v) :=
  SymbolTable.symbol?_eq_some_iff.mpr (h.mem_entries_iff.mpr ⟨v, hv, rfl, rfl⟩)

theorem Consistent.agrees {scope : Scope} (h : scope.Consistent) : scope.Agrees where
  nodup := h.nodup
  contains_iff _ := h.contains_iff
  size_eq := by
    unfold SymbolTable.size
    rw [show scope.symbols.entries = _ from h, List.length_map]
  scalar_iff v hv type := by
    rw [h.symbol?_name hv]
    cases v <;> simp [symbolOf, Variable.scalarType?]
  aggregate_iff v hv := by
    rw [h.symbol?_name hv]
    cases v <;> simp [symbolOf, Variable.scalarType?]

end Scope

theorem Build.extends_of_run {setting : Setting} {input : Logical.Probe}
    {steps : List (Step Build Unit)} (hsteps : steps ⊆ Build.parts setting input)
    {b c : Build} {outcome : Except LowerError Unit}
    (h : (Step.sequence steps).runFrom b = (outcome, c)) : b.Extends (fun _ => True) c :=
  (Step.Keeps.sequence fun _ hpart =>
    Build.keeps_parts (fun _ => trivial) (hsteps hpart)).of_run h

namespace Physical.Probe

theorem findVar?_eq_some_iff {probe : Physical.Probe}
    (h : (probe.vars.map Variable.name).Nodup) {name : String} {v : Variable} :
    probe.findVar? name = some v ↔ v ∈ probe.vars ∧ v.name = name := by
  constructor
  · intro hfind
    have hname := List.find?_some hfind
    exact ⟨List.mem_of_find?_eq_some hfind, by simpa using hname⟩
  · rintro ⟨hv, rfl⟩
    cases hfind : probe.findVar? v.name with
    | none =>
        have := List.find?_eq_none.mp hfind v hv
        simp at this
    | some found =>
        have hname := List.find?_some hfind
        have hmem := List.mem_of_find?_eq_some hfind
        rw [List.inj_on_of_nodup_map h hmem hv (by simpa using hname)]

end Physical.Probe

theorem Workspace.consistent_of_lowerProbe {facts : Facts} {language : Language}
    {input : Logical.Probe} {w v : Workspace} {probe : Physical.Probe}
    (h : w.lowerProbe facts language input = (.ok probe, v)) :
    ∃ scope : Scope, scope.Consistent ∧ scope.probe = probe := by
  obtain ⟨setting, b, -, hrun, rfl, rfl⟩ := lowerProbe_ok.mp h
  have hextends := Build.extends_of_run (List.Subset.refl _) hrun
  exact ⟨b.scope, hextends.consistent (Scope.consistent_start _ _), rfl⟩

theorem nodup_of_lowerDeployment {facts : Facts} {deployment : Logical.Deployment}
    {program : Physical.Program} (h : lowerDeployment facts deployment = .ok program)
    {probe : Physical.Probe} (hprobe : probe ∈ program.probes) :
    (probe.vars.map Variable.name).Nodup := by
  obtain ⟨input, u, -, hrun, rfl⟩ := lowerDeployment_ok.mp h
  obtain ⟨before, after, hsplit⟩ := List.append_of_mem hprobe
  obtain ⟨-, _, -, v, v', -, -, -, hlowered, -⟩ :=
    Workspace.exists_lowered_of_split hrun (by simp) hsplit
  obtain ⟨scope, hscope, rfl⟩ := Workspace.consistent_of_lowerProbe hlowered
  exact hscope.nodup

/--
Variables and symbols agree wherever the lowering of a probe is stopped: after
any number of parts, of which the last may have failed.  In a lowered program a
name stands for one variable of its probe.
-/
theorem variables_agree_with_symbols :
    (∀ (setting : Setting) (input : Logical.Probe) (w : Workspace),
      Build.lowerParts setting input = Step.sequence (Build.parts setting input) ∧
      ∀ count, ((Step.sequence ((Build.parts setting input).take count)).runFrom
        ⟨w, Scope.start input.name input.tracepoint⟩).2.scope.Agrees) ∧
    ∀ (facts : Facts) (deployment : Logical.Deployment) (program : Physical.Program),
      lowerDeployment facts deployment = .ok program →
      ∀ probe ∈ program.probes, (probe.vars.map Variable.name).Nodup ∧
        ∀ name v, probe.findVar? name = some v ↔ v ∈ probe.vars ∧ v.name = name := by
  constructor
  · intro setting input w
    refine ⟨Build.lowerParts_eq_sequence setting input, fun count => ?_⟩
    have hextends := Build.extends_of_run
      (List.take_subset count (Build.parts setting input))
      (b := ⟨w, Scope.start input.name input.tracepoint⟩) rfl
    exact (hextends.consistent (Scope.consistent_start _ _)).agrees
  · intro facts deployment program h probe hprobe
    have hnodup := nodup_of_lowerDeployment h hprobe
    exact ⟨hnodup, fun name v => Physical.Probe.findVar?_eq_some_iff hnodup⟩

theorem variables_agree_with_symbols_callProgram :
    callProgram.probes.map (·.vars.length) = [9, 14] ∧
      ∀ probe ∈ callProgram.probes, (probe.vars.map Variable.name).Nodup ∧
        ∀ name v, probe.findVar? name = some v ↔ v ∈ probe.vars ∧ v.name = name :=
  ⟨by decide +kernel,
    variables_agree_with_symbols.2 callFacts callTracing callProgram
      lowerDeployment_callTracing⟩

end ProbeLowering
