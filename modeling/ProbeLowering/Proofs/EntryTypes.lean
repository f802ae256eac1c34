import ProbeLowering.Proofs.FirstFailure
import ProbeLowering.Proofs.LatestDeclaration

/-!
# Types of entries during a run

All the time that a deployment is lowered, also while it fails, a map has the types that it
was declared with or, once a stash has resolved to it, those of the record that is named
after it; an output has the type of its record from its declaration on.  So stashes to the
same map never conflict with each other, and outputs never conflict at all: a conflict
needs a map that was declared with another record (`entry_types_of_lowerDeployment`).
-/

namespace ProbeLowering

open DebugInfo
open LowerError (IsPlain)
open Logical (RecordAction Part)

namespace Logical

def RecordAction.stashName? : RecordAction → Option String
  | .stash action => some action.mapName
  | .output _ => none

def stashNames (parts : List Part) : List String :=
  parts.filterMap fun part => part.action?.bind RecordAction.stashName?

@[simp] theorem stashNames_append (first second : List Part) :
    stashNames (first ++ second) = stashNames first ++ stashNames second := by
  simp [stashNames]

theorem stashNames_singleton (part : Part) :
    stashNames [part] = (part.action?.bind RecordAction.stashName?).toList := by
  cases h : part.action?.bind RecordAction.stashName? <;> simp [stashNames, h]

end Logical

open Logical (stashNames)

namespace Plan

theorem exists_write {language : Language} {action : RecordAction} {b : Build}
    {effect : Effect} (h : write language action b = .ok effect) :
    ∃ x, effect.write? = some x ∧ x.Fits b.workspace action := by
  cases hx : effect.write? with
  | some x => exact ⟨x, rfl, fits_of_write h hx⟩
  | none =>
      cases action <;>
      · obtain ⟨_, -, rfl⟩ := exists_ok_of_map_ok h
        cases hx

end Plan

namespace Logical.Part

theorem workspace_of_action?_none {part : Part} (h : part.action? = none)
    (setting : Setting) :
    Step.Keeps (Build.OnWorkspace (· = ·)) (part.step setting) := by
  cases part with
  | special | constant | argument | returnValue | latency | printks =>
      exact Build.keeps_onScope_onWorkspace _
  | read value =>
      rw [step, Build.readMap_eq]
      exact (Step.Keeps.query _).bind fun _ => Build.keeps_onScope_onWorkspace _
  | delete action =>
      exact (Step.Keeps.query _).bind fun _ =>
        (Build.keeps_onScope_onWorkspace _).bind fun _ => Build.keeps_onScope_onWorkspace _
  | stash | output => cases h

/--
A part leaves the workspace alone, or it is refused by the check of its record action, or
it writes the record of this action.  Only the check can find a conflict.
-/
theorem run_cases {part : Part} {setting : Setting} {b c : Build}
    {outcome : Except LowerError Unit} (h : (part.step setting).runFrom b = (outcome, c)) :
    (part.action? = none ∧ c.workspace = b.workspace ∧ ∀ e, outcome = .error e → e.IsPlain) ∨
    (∃ action e, part.action? = some action ∧ outcome = .error e ∧
      Plan.write setting.language action b = .error e ∧ c = b) ∨
    ∃ action write, part.action? = some action ∧ RecordWrite.Fits b.workspace action write ∧
      c.workspace = write.apply b.workspace ∧ ∀ e, outcome = .error e → e.IsPlain := by
  cases haction : part.action? with
  | none =>
      have hsame : b.workspace = c.workspace :=
        (workspace_of_action?_none haction setting).of_run h
      refine .inl ⟨rfl, hsame.symm, ?_⟩
      rintro e rfl
      exact isPlain_of_action?_none haction setting b e c h
  | some action =>
      rw [step_of_action? haction, Plan.runFrom_step] at h
      cases hplan : Plan.write setting.language action b with
      | error e =>
          rw [hplan] at h
          cases h
          exact .inr (.inl ⟨action, e, rfl, rfl, hplan, rfl⟩)
      | ok effect =>
          rw [hplan] at h
          obtain ⟨write, hwrite, hfits⟩ := Plan.exists_write hplan
          obtain ⟨hscope, rfl⟩ := Prod.mk.inj h
          refine .inr (.inr ⟨action, write, rfl, hfits, by simp [hwrite], ?_⟩)
          rintro e rfl
          exact Plan.raises_declare_write hplan _ e _ (Prod.ext hscope rfl)

end Logical.Part

/-! ## Types since the declarations -/

namespace Workspace

/-- What stashes to the maps under `names` have made of the map declared at position `i`. -/
def entryAfter (start : Workspace) (names : List String) (i : Nat) (decl : MapDecl) :
    MapDecl :=
  if ∃ name ∈ names, start.registry.maps.lookup name = some i then .stashed decl.name
  else decl

/-- Since the declarations were made, maps were typed by stashes under `names` only. -/
structure TypedSince (start : Workspace) (names : List String) (w : Workspace) : Prop where
  located : w.Located
  /-- Names refer to the entries that they referred to then. -/
  positions : w.registry.maps = start.registry.maps
  maps : w.program.maps = start.program.maps.mapIdx (start.entryAfter names)
  outputs : ∀ output ∈ w.program.outputs, output.structType = structTypeName output.name

/-- The part stashes to a map that was declared with another record than that of the stash. -/
def DeclaredOtherwise (start : Workspace) (part : Part) (name existing expected : String) :
    Prop :=
  ∃ action index decl, part = .stash action ∧ action.mapName = name ∧
    start.map? name = .ok (index, decl) ∧ decl.valueStruct = some existing ∧
    expected = structTypeName name ∧ existing ≠ expected

variable {start w : Workspace} {names : List String} {action : RecordAction}
  {write : RecordWrite}

theorem entryAfter_nil (start : Workspace) (i : Nat) : start.entryAfter [] i = id := by
  funext decl
  simp [entryAfter]

theorem entryAfter_of_lookup {name : String} {i : Nat} (hname : name ∈ names)
    (h : start.registry.maps.lookup name = some i) (decl : MapDecl) :
    start.entryAfter names i decl = .stashed decl.name :=
  if_pos ⟨name, hname, h⟩

theorem entryAfter_concat {name : String} {i : Nat}
    (h : start.registry.maps.lookup name ≠ some i) :
    start.entryAfter (names ++ [name]) i = start.entryAfter names i := by
  funext decl
  simp [entryAfter, h]

theorem typedSince_ofProgram (target : Target) (input : Logical.Program) :
    (ofProgram target input).TypedSince [] (ofProgram target input) := by
  refine ⟨located_ofProgram target input, rfl, ?_, ?_⟩
  · apply List.ext_getElem?
    intro i
    rw [List.getElem?_mapIdx, entryAfter_nil, Option.map_id, id]
  · simp [program_ofProgram, Logical.Output.buffer]

namespace TypedSince

theorem exists_declared (h : start.TypedSince names w) {i : Nat} {decl : MapDecl}
    (hdecl : w.program.maps[i]? = some decl) :
    ∃ declared, start.program.maps[i]? = some declared ∧
      start.entryAfter names i declared = decl := by
  rw [h.maps, List.getElem?_mapIdx] at hdecl
  simpa using hdecl

theorem maps_set (h : start.TypedSince names w) (hstart : start.Located) {name : String}
    {i : Nat} {decl : MapDecl} (hentry : w.map? name = .ok (i, decl)) :
    w.program.maps.set i (.stashed name) =
      start.program.maps.mapIdx (start.entryAfter (names ++ [name])) := by
  obtain ⟨hindex, hdecl⟩ := map?_ok.mp hentry
  rw [h.positions] at hindex
  obtain ⟨declared, hdeclared, -⟩ := h.exists_declared hdecl
  have hname : declared.name = name := hstart.maps.belongs hindex hdeclared
  apply List.ext_getElem?
  intro j
  rw [List.getElem?_mapIdx]
  by_cases hj : i = j
  · subst hj
    obtain ⟨hlt, -⟩ := List.getElem?_eq_some_iff.mp hdecl
    simp [hlt, hdeclared, entryAfter_of_lookup _ hindex, hname]
  · have hother : start.registry.maps.lookup name ≠ some j := by
      rw [hindex]
      exact fun heq => hj (Option.some.inj heq)
    rw [List.getElem?_set_ne hj, h.maps, List.getElem?_mapIdx, entryAfter_concat hother]

theorem apply (h : start.TypedSince names w) (hstart : start.Located)
    (hfits : write.Fits w action) :
    start.TypedSince (names ++ action.stashName?.toList) (write.apply w) := by
  have hsame : w.SameDeclarations (write.apply w) := h.located.sameDeclarations_apply hfits
  refine ⟨h.located.apply hfits, hsame.mapPositions.trans h.positions, ?_,
    hsame.outputs ▸ h.outputs⟩
  rw [maps_apply]
  cases hfits with
  | @map action index decl record hentry hname =>
      have htyped := h.located.typedMap?_eq (.map hentry hname) rfl
      simp only [RecordWrite.typedMap?] at htyped ⊢
      rw [htyped]
      exact h.maps_set hstart hentry
  | output =>
      simpa [RecordWrite.typedMap?, RecordAction.stashName?] using h.maps

section Step

variable {part : Part} {setting : Setting} {b c : Build}

theorem step (h : start.TypedSince names b.workspace) (hstart : start.Located)
    {outcome : Except LowerError Unit} (hrun : (part.step setting).runFrom b = (outcome, c)) :
    start.TypedSince (names ++ stashNames [part]) c.workspace ∨
      (∃ e, outcome = .error e) ∧ start.TypedSince names c.workspace := by
  rw [Logical.stashNames_singleton]
  rcases Logical.Part.run_cases hrun with ⟨haction, hworkspace, -⟩ |
    ⟨action, e, -, rfl, -, rfl⟩ | ⟨action, write, haction, hfits, hworkspace, -⟩
  · rw [haction, hworkspace]
    simpa using .inl h
  · exact .inr ⟨⟨e, rfl⟩, h⟩
  · rw [haction, hworkspace]
    exact .inl (h.apply hstart hfits)

theorem parts (hstart : start.Located) {parts : List Part}
    (h : start.TypedSince names b.workspace)
    (hrun : (Step.sequence (parts.map (Part.step setting))).runFrom b = (.ok (), c)) :
    start.TypedSince (names ++ stashNames parts) c.workspace := by
  -- The names grow with each part that is lowered.
  induction parts generalizing names b with
  | nil =>
      cases hrun
      simpa [stashNames] using h
  | cons part rest ih =>
      obtain ⟨d, hpart, hrest⟩ := Step.runFrom_sequence_cons_ok.mp hrun
      have hd : start.TypedSince (names ++ stashNames [part]) d.workspace := by
        rcases h.step hstart hpart with hd | ⟨⟨_, herror⟩, -⟩
        · exact hd
        · cases herror
      have hsplit : names ++ stashNames (part :: rest) =
          names ++ stashNames [part] ++ stashNames rest := by
        rw [List.append_assoc, ← Logical.stashNames_append, List.singleton_append]
      rw [hsplit]
      exact ih hd hrest

theorem conflict (h : start.TypedSince names b.workspace) (hstart : start.Located)
    {name existing expected : String}
    (hrun : (part.step setting).runFrom b =
      (.error (.structTypeConflict name existing expected), c)) :
    start.DeclaredOtherwise part name existing expected ∧ name ∉ names := by
  rcases Logical.Part.run_cases hrun with ⟨-, -, hplain⟩ |
    ⟨action, e, haction, herror, hcheck, -⟩ | ⟨_, _, -, -, -, hplain⟩
  · cases hplain _ rfl
  · cases herror
    cases action with
    | stash action =>
        rcases Build.stashRecord_error (error_of_map_error hcheck) with
          hplain | ⟨index, decl, found, hentry, hvalue, hne, hconflict⟩
        · cases hplain
        · cases hconflict
          obtain ⟨hindex, hdecl⟩ := map?_ok.mp hentry
          rw [h.positions] at hindex
          obtain ⟨declared, hdeclared, rfl⟩ := h.exists_declared hdecl
          have hname : declared.name = action.mapName := hstart.maps.belongs hindex hdeclared
          -- After a stash the map would have the very type that this one expects.
          have hfresh : ¬∃ name ∈ names, start.registry.maps.lookup name = some index := by
            intro hstashed
            rw [entryAfter, if_pos hstashed, MapDecl.stashed, hname] at hvalue
            exact hne (Option.some.inj hvalue).symm
          rw [entryAfter, if_neg hfresh] at hvalue
          refine ⟨⟨action, index, declared, ?_, rfl, map?_ok.mpr ⟨hindex, hdeclared⟩, hvalue,
            rfl, hne⟩, fun hmem => hfresh ⟨_, hmem, hindex⟩⟩
          cases part <;> cases haction
          rfl
    | output action =>
        rcases Build.outputRecord_error (error_of_map_error hcheck) with
          hplain | ⟨index, buffer, hentry, hne, -⟩
        · cases hplain
        · -- The output has had this type since it was declared.
          obtain ⟨hindex, hbuffer⟩ := output?_ok.mp hentry
          obtain ⟨-, htype⟩ := h.located.outputs.belongs hindex hbuffer
          exact absurd htype hne
  · cases hplain _ rfl

end Step

end TypedSince

/-! ## Moments of a run -/

/--
A run over the probes of `input` has lowered the parts `lowered`, those of the probe that
it is at included, and is about to lower `part` in the build `b`.
-/
def Reaches (facts : Facts) (target : Target) (input : Logical.Program)
    (lowered : List Part) (setting : Setting) (part : Part) (b : Build) : Prop :=
  ∃ earlier probe later w done rest, input.probes = earlier ++ probe :: later ∧
    (generateProbes facts input.language earlier).runFrom (ofProgram target input) =
      (.ok (), w) ∧
    Setting.ofSymbol facts input.language probe.tracepoint.symbol = .ok setting ∧
    probe.parts = done ++ part :: rest ∧
    (Step.sequence (done.map (Part.step setting))).runFrom
      ⟨w, Scope.start probe.name probe.tracepoint⟩ = (.ok (), b) ∧
    lowered = earlier.flatMap Logical.Probe.parts ++ done

section Run

variable {facts : Facts} {target : Target} {input : Logical.Program}

theorem typedSince_of_run {probes : List Logical.Probe} {u : Workspace}
    (h : (generateProbes facts input.language probes).runFrom (ofProgram target input) =
      (.ok (), u)) :
    (ofProgram target input).TypedSince
      (stashNames (probes.flatMap Logical.Probe.parts)) u := by
  have hstart : (ofProgram target input).Located := located_ofProgram target input
  refine invariant_of_run (I := fun done w => (ofProgram target input).TypedSince
    (stashNames (done.flatMap Logical.Probe.parts)) w) (fun done probe w v lowered hw hlowered
      => ?_) (typedSince_ofProgram target input) h
  obtain ⟨setting, b, -, hrun, -, rfl⟩ := lowerProbe_ok.mp hlowered
  rw [← Build.map_step_parts] at hrun
  have hb : (ofProgram target input).TypedSince
      (stashNames (done.flatMap Logical.Probe.parts) ++ stashNames probe.parts) b.workspace :=
    hw.parts hstart hrun
  rw [List.flatMap_append, Logical.stashNames_append, List.flatMap_singleton]
  exact ⟨hb.located.addProbe lowered, hb.positions, hb.maps, hb.outputs⟩

theorem Reaches.typedSince {lowered : List Part} {setting : Setting} {part : Part} {b : Build}
    (h : Reaches facts target input lowered setting part b) :
    (ofProgram target input).TypedSince (stashNames lowered) b.workspace := by
  obtain ⟨earlier, probe, later, w, done, rest, -, hearlier, -, -, hdone, rfl⟩ := h
  rw [Logical.stashNames_append]
  exact (typedSince_of_run hearlier).parts (located_ofProgram target input) hdone

end Run

/--
Whatever a run over the probes of `input` has come to, its entries are typed by their
declarations and by the stashes before.
-/
structure TypedThroughout (facts : Facts) (target : Target) (input : Logical.Program) :
    Prop where
  /-- While maps and outputs are declared. -/
  declaring : ∀ maps outputs, maps <+: input.maps → outputs <+: input.outputs →
    (ofProgram target { input with maps, outputs }).program.maps = maps ∧
    ∀ output ∈ (ofProgram target { input with maps, outputs }).program.outputs,
      output.structType = structTypeName output.name
  /-- After each probe. -/
  between : ∀ earlier u, earlier <+: input.probes →
    (generateProbes facts input.language earlier).runFrom (ofProgram target input) =
      (.ok (), u) →
    (ofProgram target input).TypedSince (stashNames (earlier.flatMap Logical.Probe.parts)) u
  /-- Before and after each part of a probe.  A part that fails may have written nothing. -/
  within : ∀ lowered setting part b outcome c,
    Reaches facts target input lowered setting part b →
    (part.step setting).runFrom b = (outcome, c) →
    (ofProgram target input).TypedSince (stashNames lowered) b.workspace ∧
    ((ofProgram target input).TypedSince (stashNames (lowered ++ [part])) c.workspace ∨
      (∃ e, outcome = .error e) ∧
        (ofProgram target input).TypedSince (stashNames lowered) c.workspace)

theorem typedThroughout (facts : Facts) (target : Target) (input : Logical.Program) :
    TypedThroughout facts target input where
  declaring maps outputs _ _ := by
    refine ⟨?_, (typedSince_ofProgram target { input with maps, outputs }).outputs⟩
    rw [program_ofProgram]
  between earlier u _ hrun := typedSince_of_run hrun
  within lowered setting part b outcome c hb hrun := by
    rw [Logical.stashNames_append]
    exact ⟨hb.typedSince, hb.typedSince.step (located_ofProgram target input) hrun⟩

end Workspace

/--
Entries are typed by their declarations and by stashes as long as a deployment is lowered,
and so are those of its program.  A conflict comes from a stash to a map that was declared
otherwise and that no stash has been made to before; it is raised where this part is reached.
-/
theorem entry_types_of_lowerDeployment (facts : Facts) {deployment : Logical.Deployment}
    {input : Logical.Program} (hsingle : deployment.tracepoints = [input]) :
    Workspace.TypedThroughout facts deployment.target input ∧
    (∀ program, lowerDeployment facts deployment = .ok program → ∃ u, u.program = program ∧
      (Workspace.ofProgram deployment.target input).TypedSince
        (stashNames (input.probes.flatMap Logical.Probe.parts)) u) ∧
    ∀ e, lowerDeployment facts deployment = .error e → ∀ name existing expected,
      e.rootCause = .structTypeConflict name existing expected →
      ∃ lowered setting part b,
        Workspace.Reaches facts deployment.target input lowered setting part b ∧
        (∃ c, (part.step setting).runFrom b =
          (.error (.structTypeConflict name existing expected), c)) ∧
        (Workspace.ofProgram deployment.target input).DeclaredOtherwise part name existing
          expected ∧
        name ∉ stashNames lowered := by
  have hthroughout := Workspace.typedThroughout facts deployment.target input
  refine ⟨hthroughout, fun program hlowered => ?_,
    fun e herror name existing expected hcause => ?_⟩
  · obtain ⟨single, u, hinput, hrun, hu⟩ := lowerDeployment_ok.mp hlowered
    obtain rfl : input = single := by simpa [hsingle] using hinput
    exact ⟨u, hu, hthroughout.between _ u List.prefix_rfl hrun⟩
  · obtain ⟨probe, source, hfails, rfl⟩ := (lowerDeployment_error_of_single hsingle).mp herror
    obtain rfl : source = .structTypeConflict name existing expected :=
      (LowerError.rootCause_of_probe? hfails.probe?_eq).symm.trans hcause
    obtain ⟨earlier, later, w, v, hprobes, hearlier, hsource⟩ := hfails
    rcases Workspace.lowerProbe_error hsource with ⟨_, hdebug⟩ |
      ⟨setting, done, part, rest, b, c, hsetting, hparts, hdone, hpart, -⟩
    · cases hdebug
    · have hb : Workspace.Reaches facts deployment.target input
          (earlier.flatMap Logical.Probe.parts ++ done) setting part b :=
        ⟨earlier, probe, later, w, done, rest, hprobes, hearlier, hsetting, hparts, hdone, rfl⟩
      exact ⟨_, setting, part, b, hb, ⟨c, hpart⟩,
        hb.typedSince.conflict (Workspace.located_ofProgram deployment.target input) hpart⟩

def legacyProbe : Logical.Probe where
  name := "legacy"
  tracepoint := ⟨"main.Serve", .entry⟩
  stashes := [{ mapName := "legacy", key := .tgid, valueVariables := ["tgid_"] }]

def legacyProgram : Logical.Program where
  language := .c
  maps := [{ name := "calls" }, { name := "legacy", valueStruct := some "legacy_t" }]
  outputs := [⟨"events", ["pid"]⟩]
  probes := [keyedProbe, { keyedProbe with name := "again" }, legacyProbe]

def legacyTracing : Logical.Deployment := ⟨⟨"/usr/bin/server"⟩, [legacyProgram]⟩

theorem entry_types_of_lowerDeployment_legacyTracing :
    lowerDeployment callFacts legacyTracing =
        .error (.inProbe "legacy" (.structTypeConflict "legacy" "legacy_t" "legacy_value_t")) ∧
      ∃ lowered setting part b,
        Workspace.Reaches callFacts legacyTracing.target legacyProgram lowered setting part b ∧
        (∃ c, (part.step setting).runFrom b =
          (.error (.structTypeConflict "legacy" "legacy_t" "legacy_value_t"), c)) ∧
        (Workspace.ofProgram legacyTracing.target legacyProgram).DeclaredOtherwise part "legacy"
          "legacy_t" "legacy_value_t" ∧
        "legacy" ∉ stashNames lowered ∧
        (Workspace.ofProgram legacyTracing.target legacyProgram).TypedSince (stashNames lowered)
          b.workspace := by
  have hfailed : lowerDeployment callFacts legacyTracing =
      .error (.inProbe "legacy" (.structTypeConflict "legacy" "legacy_t" "legacy_value_t")) := by
    decide +kernel
  have hsingle : legacyTracing.tracepoints = [legacyProgram] := rfl
  obtain ⟨hthroughout, -, hconflict⟩ := entry_types_of_lowerDeployment callFacts hsingle
  obtain ⟨lowered, setting, part, b, hb, hraised, hdeclared, hfresh⟩ :=
    hconflict _ hfailed _ _ _ rfl
  obtain ⟨htyped, -⟩ := hthroughout.within lowered setting part b _ _ hb rfl
  exact ⟨hfailed, lowered, setting, part, b, hb, hraised, hdeclared, hfresh, htyped⟩

end ProbeLowering
