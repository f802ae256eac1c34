import ProbeLowering.Proofs.LatestDeclaration
import ProbeLowering.Proofs.ReservedNames

/-!
# Keys of stashes

Every map that is stashed to has 64-bit keys, whatever value its entries are stored under.
The variable of a built-in value has a type of its own, which is as wide for all of them
but the process number (`stash_keys_fit`).
-/

namespace ProbeLowering

open DebugInfo
open Physical (Variable)

def ScalarType.byteWidth? : ScalarType → Option Nat
  | bool | char | uchar | int8 | uint8 => some 1
  | short | ushort | int16 | uint16 => some 2
  | int | uint | int32 | uint32 | float => some 4
  | long | ulong | longLong | ulongLong | int64 | uint64 | double | voidPointer => some 8
  | string | byteArray => none

def Builtin.scalarType : Builtin → ScalarType
  | goid => .int64
  | tgid => .int32
  | tgidPid | tgidStartTime | ktime => .uint64

theorem Builtin.byteWidth?_scalarType {helper : Builtin} (h : helper ≠ .tgid) :
    helper.scalarType.byteWidth? = ScalarType.uint64.byteWidth? := by
  cases helper with
  | tgid => contradiction
  | goid | tgidPid | tgidStartTime | ktime => rfl

theorem Builtin.variableName_mem_reservedNames (helper : Builtin) :
    helper.variableName ∈ reservedNames :=
  List.mem_map_of_mem (mem_reservedSources helper)

theorem Scope.eq_builtin_of_mem_special {language : Language} {tracepoint : TracePoint}
    {v : Variable} (hv : v ∈ specialVariables language tracepoint) {helper : Builtin}
    (hname : v.name = helper.variableName) :
    v = .scalar ⟨helper.variableName, helper.scalarType, .builtin helper⟩ := by
  simp only [specialVariables, List.mem_append, List.mem_cons, List.not_mem_nil, or_false,
    List.mem_ite_nil_right] at hv
  rcases hv with ((rfl | rfl | rfl | rfl | rfl) | ⟨-, rfl⟩) | ⟨-, rfl⟩
  all_goals
    cases helper <;>
      simp [Variable.name, Builtin.variableName, Builtin.scalarType, stackPointerVariable,
        returnRegisterVariable] at hname ⊢

namespace Physical.Probe

/--
The variable under `key` is as wide as `keyType`, unless it is the process number or a
value that the request itself calls by the name of the goroutine number.
-/
def KeyFits (language : Language) (input : Logical.Probe) (probe : Probe)
    (keyType : ScalarType) (key : String) : Prop :=
  ∃ type, probe.scalarType? key = some type ∧
    (type.byteWidth? = keyType.byteWidth? ∨
      key = Builtin.tgid.variableName ∧ type = .int32 ∨
      key = Builtin.goid.variableName ∧ language ≠ .go ∧ key ∈ input.declaredNames)

variable {language : Language} {outputFields : String → List String}
  {input : Logical.Probe} {probe : Probe} {program : Program}

theorem Mirrors.keyFits_variableName (h : probe.Mirrors language outputFields input)
    {helper : Builtin} (hmem : helper.variableName ∈ probe.vars.map Variable.name) :
    probe.KeyFits language input .uint64 helper.variableName := by
  obtain ⟨v, hv, hname⟩ := List.mem_map.mp hmem
  have hreserved : v.name ∈ reservedNames := by
    rw [hname]
    exact helper.variableName_mem_reservedNames
  rcases h.special_or_takes hv hreserved with hspecial | ⟨hdeclared, htaken⟩
  · have hbuiltin := Scope.eq_builtin_of_mem_special hspecial hname
    refine ⟨helper.scalarType, ?_, ?_⟩
    · have hfound := (findVar?_eq_some_iff h.distinct).mpr ⟨hv, hname⟩
      simp [scalarType?, hfound, hbuiltin, Variable.scalarType?]
    · by_cases htgid : helper = .tgid
      · subst htgid
        exact .inr (.inl ⟨rfl, rfl⟩)
      · exact .inl (Builtin.byteWidth?_scalarType htgid)
  · obtain ⟨args, results, reads, hblocks⟩ := h.vars
    rw [hname] at hdeclared htaken
    obtain ⟨type, htype⟩ := exists_scalarType? h.distinct (hblocks.scalarName_mem hdeclared)
    refine ⟨type, htype, .inr (.inr ?_)⟩
    rcases htaken with ⟨hgoid, hlanguage⟩ | ⟨hrc, -⟩
    · exact ⟨hgoid, hlanguage, hdeclared⟩
    · cases helper <;> simp [Builtin.variableName, returnRegisterVariable] at hrc

theorem Mirrors.keyFits (h : probe.Mirrors language outputFields input)
    (hresolved : probe.Resolved program) {action : Physical.StashAction}
    (haction : action ∈ probe.stashes) :
    probe.KeyFits language input .uint64 action.keyVariable := by
  obtain ⟨hkey, -, -⟩ := hresolved.stashes action haction
  rw [h.stashes] at haction
  obtain ⟨stash, -, rfl⟩ := List.mem_map.mp haction
  exact h.keyFits_variableName hkey

end Physical.Probe

/--
The last map of the name that a stash writes to has 64-bit keys, and the key of the stash
is a scalar of this width unless it is the process number, of half the width, or the
request takes the name of the goroutine number for a value of its own.
-/
theorem stash_keys_fit {facts : Facts} {deployment : Logical.Deployment}
    {program : Physical.Program} (h : lowerDeployment facts deployment = .ok program) :
    ∃ input, deployment.tracepoints = [input] ∧
      List.Forall₂ (fun logical probe => ∀ action ∈ probe.stashes, ∃ decl,
        program.maps.findRev? (·.name == action.mapName) = some decl ∧
          decl.keyType = some .uint64 ∧
          probe.KeyFits input.language logical .uint64 action.keyVariable)
        input.probes program.probes := by
  obtain ⟨input, u, hinput, hrun, rfl⟩ := lowerDeployment_ok.mp h
  have hkeys : List.Forall₂ (fun logical probe => ∀ action ∈ probe.stashes,
      probe.KeyFits input.language logical .uint64 action.keyVariable)
      input.probes u.program.probes :=
    Workspace.forall₂_of_run (I := Workspace.Located)
      (fun logical w v probe hw hlowered =>
        ⟨(Workspace.keepsNames_of_lowerProbe hw hlowered).1.addProbe probe,
          fun _ haction => (Workspace.mirrors_of_lowerProbe hlowered).keyFits
            (Workspace.resolved_of_lowerProbe hw hlowered) haction⟩)
      (Workspace.located_ofProgram _ _) (by simp) hrun
  refine ⟨input, hinput, ?_⟩
  rw [List.forall₂_iff_zip] at hkeys ⊢
  refine ⟨hkeys.1, fun hpair action haction => ?_⟩
  have hmap := Workspace.findRev?_of_stash hrun (List.of_mem_zip hpair).2 haction
  exact ⟨_, hmap, rfl, hkeys.2 hpair action haction⟩

theorem stash_keys_fit_callEntry :
    ∃ probe ∈ callProgram.probes, ∃ action ∈ probe.stashes, ∃ decl,
      callProgram.maps.findRev? (·.name == action.mapName) = some decl ∧
        decl.keyType = some .uint64 ∧
        probe.KeyFits .go callEntry .uint64 action.keyVariable := by
  obtain ⟨input, hinput, hprobes⟩ := stash_keys_fit lowerDeployment_callTracing
  cases hinput
  obtain ⟨probe, rest, hfits, -, hprobes⟩ := List.forall₂_cons_left_iff.mp hprobes
  have hstashed : ∀ probe ∈ callProgram.probes.head?, probe.stashes ≠ [] := by
    decide +kernel
  have hmem : probe ∈ callProgram.probes := by simp [hprobes]
  obtain ⟨action, haction⟩ := List.exists_mem_of_ne_nil _ (hstashed probe (by simp [hprobes]))
  exact ⟨probe, hmem, action, haction, hfits action haction⟩

def processKeyInput : Logical.Program where
  language := .go
  maps := [{ name := "calls" }]
  probes := [
    { name := "by_process"
      tracepoint := ⟨"main.Serve", .entry⟩
      stashes := [{ mapName := "calls", key := .tgid, valueVariables := ["time_"] }] }]

def processKeyProgram : Physical.Program :=
  (lowerDeployment callFacts ⟨⟨"/usr/bin/server"⟩, [processKeyInput]⟩).toOption.getD {}

theorem exists_narrow_key :
    lowerDeployment callFacts ⟨⟨"/usr/bin/server"⟩, [processKeyInput]⟩ =
        .ok processKeyProgram ∧
      ∃ probe ∈ processKeyProgram.probes, ∃ action ∈ probe.stashes,
        (processKeyProgram.findMap? action.mapName).map (·.keyType.map (·.byteWidth?)) =
            some (some (some 8)) ∧
          (probe.scalarType? action.keyVariable).map (·.byteWidth?) = some (some 4) :=
  ⟨eq_ok_of_isSome _ (by decide +kernel), by decide +kernel⟩

end ProbeLowering
