import ProbeLowering.DebugInfo.Snapshot
import ProbeLowering.Proofs.Parts

/-!
# Runs over the probes of a deployment

A successful lowering is a run over the probes of one logical program that
starts at the workspace of its declarations.  Each probe of the resulting
program was lowered at its own place in this run (`exists_lowered_at`), and what
every lowered probe keeps holds at every point of it (`invariant_of_run`).
-/

namespace ProbeLowering

open DebugInfo

namespace Workspace

theorem lowerProbe_ok {facts : Facts} {language : Language} {input : Logical.Probe}
    {w v : Workspace} {probe : Physical.Probe} :
    w.lowerProbe facts language input = (.ok probe, v) ↔
      ∃ setting b,
        Setting.ofSymbol facts language input.tracepoint.symbol = .ok setting ∧
        (Step.sequence (Build.parts setting input)).runFrom
          ⟨w, Scope.start input.name input.tracepoint⟩ = (.ok (), b) ∧
        b.scope.probe = probe ∧ b.workspace = v := by
  constructor
  · intro h
    unfold lowerProbe at h
    split at h
    next => cases h
    next setting hsetting =>
      simp only [Build.lowerParts_eq_sequence] at h
      split at h
      next => cases h
      next b hrun =>
        cases h
        exact ⟨setting, b, hsetting, hrun, rfl, rfl⟩
  · rintro ⟨setting, b, hsetting, hrun, rfl, rfl⟩
    simp [lowerProbe, hsetting, Build.lowerParts_eq_sequence, hrun]

/--
A lowered probe has scalars, then the variables of its map reads, then again
scalars; only then its records are written.
-/
theorem exists_write_phase {facts : Facts} {language : Language}
    {input : Logical.Probe} {w v : Workspace} {probe : Physical.Probe}
    (h : w.lowerProbe facts language input = (.ok probe, v)) :
    ∃ b c declared latency,
      (Step.sequence (Build.writeParts language input)).runFrom b = (.ok (), c) ∧
      b.workspace = w ∧ b.scope.Consistent ∧
      b.scope.probe.vars = declared ++
        input.mapVals.flatMap (Build.readVariablesIn w) ++ latency ∧
      (∀ x ∈ declared ++ latency, ∃ scalar, x = .scalar scalar) ∧
      (∀ value ∈ input.mapVals, ∃ layout,
        w.struct? (structTypeName value.mapName) = .ok layout ∧
        value.valueIds.length ≤ layout.fields.length) ∧
      c.scope.probe = probe ∧ c.workspace = v := by
  obtain ⟨setting, c, hsetting, hrun, hprobe, hv⟩ := lowerProbe_ok.mp h
  obtain ⟨-, rfl, -, -⟩ := Setting.ofSymbol_ok.mp hsetting
  obtain ⟨b, hbefore, hwrites⟩ := Step.runFrom_sequence_append_ok.mp hrun
  obtain ⟨b₂, hbefore, hlatency⟩ := Step.runFrom_sequence_append_ok.mp hbefore
  obtain ⟨b₁, hdeclares, hreads⟩ := Step.runFrom_sequence_append_ok.mp hbefore
  have hfirst : (Build.mk w (Scope.start input.name input.tracepoint)).Extends
      (fun x => ∃ scalar, x = .scalar scalar) b₁ :=
    (Step.Keeps.sequence fun _ =>
      Build.keeps_declareParts fun scalar => ⟨scalar, rfl⟩).of_run hdeclares
  have hb₁ : w = b₁.workspace :=
    (Step.Keeps.sequence fun _ =>
      Build.keeps_declareParts_onWorkspace (R := Eq)).of_run hdeclares
  have hsecond : b₁.Extends (fun _ => True) b₂ :=
    (Step.Keeps.sequence fun _ =>
      Build.keeps_readParts (fun _ => trivial) fun _ => trivial).of_run hreads
  obtain ⟨hb₂, hread, hvalues⟩ := Build.readParts_ok hreads
  have hthird : b₂.Extends (fun x => ∃ scalar, x = .scalar scalar) b :=
    (Step.Keeps.sequence fun _ =>
      Build.keeps_latencyParts fun scalar => ⟨scalar, rfl⟩).of_run hlatency
  have hb : b₂.workspace = b.workspace :=
    (Step.Keeps.sequence fun _ =>
      Build.keeps_latencyParts_onWorkspace (R := Eq)).of_run hlatency
  obtain ⟨declared, hdeclared, hscalars⟩ := hfirst.vars
  obtain ⟨latency, hb', hlatencies⟩ := hthird.vars
  rw [← hb₁] at hb₂ hread hvalues
  refine ⟨b, c, declared, latency, hwrites, hb.symm.trans hb₂, ?_, ?_, ?_, hvalues,
    hprobe, hv⟩
  · exact hthird.consistent (hsecond.consistent (hfirst.consistent rfl))
  · rw [hb', hread, hdeclared]
    rfl
  · intro x hx
    rcases List.mem_append.mp hx with hx | hx
    · exact hscalars x hx
    · exact hlatencies x hx

theorem reads_of_lowerProbe {facts : Facts} {language : Language}
    {input : Logical.Probe} {w v : Workspace} {probe : Physical.Probe}
    (h : w.lowerProbe facts language input = (.ok probe, v)) :
    (∀ value ∈ input.mapVals, ∃ layout,
      w.struct? (structTypeName value.mapName) = .ok layout ∧
      value.valueIds.length ≤ layout.fields.length ∧
      Build.readVariables value layout ⊆ probe.vars) ∧
    ∀ x, .member x ∈ probe.vars → ∃ value ∈ input.mapVals, ∃ layout,
      w.struct? (structTypeName value.mapName) = .ok layout ∧
      .member x ∈ Build.readVariables value layout := by
  obtain ⟨b, c, declared, latency, hwrites, -, -, hvars, hscalars, hvalues, rfl, -⟩ :=
    exists_write_phase h
  have hextends : b.Extends (fun x => ∃ record, x = .struct record) c :=
    (Step.Keeps.sequence fun _ =>
      Build.keeps_writeParts fun record => ⟨record, rfl⟩).of_run hwrites
  constructor
  · intro value hvalue
    obtain ⟨layout, hlayout, hlength⟩ := hvalues value hvalue
    refine ⟨layout, hlayout, hlength, fun x hx => hextends.vars_prefix.subset ?_⟩
    have hread : x ∈ Build.readVariablesIn w value := by
      simpa [Build.readVariablesIn, hlayout] using hx
    rw [hvars]
    simp only [List.mem_append, List.mem_flatMap]
    exact .inl (.inr ⟨value, hvalue, hread⟩)
  · intro x hx
    rcases hextends.mem hx with hx | ⟨record, hrecord⟩
    · rw [hvars] at hx
      simp only [List.mem_append, List.mem_flatMap] at hx
      rcases hx with (hx | ⟨value, hvalue, hx⟩) | hx
      · obtain ⟨scalar, hscalar⟩ := hscalars _ (List.mem_append_left _ hx)
        cases hscalar
      · obtain ⟨layout, hlayout, -⟩ := hvalues value hvalue
        refine ⟨value, hvalue, layout, hlayout, ?_⟩
        simpa [Build.readVariablesIn, hlayout] using hx
      · obtain ⟨scalar, hscalar⟩ := hscalars _ (List.mem_append_right _ hx)
        cases hscalar
    · cases hrecord

theorem runFrom_generateProbe (facts : Facts) (language : Language)
    (input : Logical.Probe) (w : Workspace) :
    (generateProbe facts language input).runFrom w =
      match w.lowerProbe facts language input with
      | (.error e, v) => (.error (e.atProbe input.name), v)
      | (.ok probe, v) => (.ok (), v.addProbe probe) := rfl

theorem generateProbe_ok {facts : Facts} {language : Language}
    {input : Logical.Probe} {w u : Workspace} :
    (generateProbe facts language input).runFrom w = (.ok (), u) ↔
      ∃ probe v, w.lowerProbe facts language input = (.ok probe, v) ∧
        v.addProbe probe = u := by
  rw [runFrom_generateProbe]
  constructor
  · intro h
    split at h
    next => cases h
    next probe v hprobe =>
      cases h
      exact ⟨probe, v, hprobe, rfl⟩
  · rintro ⟨probe, v, hprobe, rfl⟩
    rw [hprobe]

def SameProbes (w v : Workspace) : Prop := v.program.probes = w.program.probes

instance : IsPreorder Workspace SameProbes where
  refl _ := rfl
  trans _ _ _ h h' := h'.trans h

theorem sameProbes_registerStruct (w : Workspace) (value : Physical.Struct) :
    SameProbes w (w.registerStruct value) := by
  unfold SameProbes registerStruct
  split <;> rfl

theorem sameProbes_writeMap (index : Nat) (map : MapDecl) (record : Physical.Struct)
    (w : Workspace) : SameProbes w (Build.writeMap index map record w) :=
  sameProbes_registerStruct (w.setMap index _) record

theorem sameProbes_writeBuffer (index : Nat) (buffer : Physical.PerfBuffer)
    (event : Physical.Struct) (w : Workspace) :
    SameProbes w (Build.writeBuffer index buffer event w) :=
  sameProbes_registerStruct (w.setOutput index _) event

theorem sameProbes_of_lowerProbe {facts : Facts} {language : Language}
    {input : Logical.Probe} {w v : Workspace} {probe : Physical.Probe}
    (h : w.lowerProbe facts language input = (.ok probe, v)) : SameProbes w v := by
  obtain ⟨setting, b, -, hrun, -, rfl⟩ := lowerProbe_ok.mp h
  have hparts : ∀ part ∈ Build.parts setting input,
      Step.Keeps (Build.OnWorkspace SameProbes) part := fun part hpart =>
    Build.keeps_parts_onWorkspace sameProbes_writeMap sameProbes_writeBuffer hpart
  exact (Step.Keeps.sequence hparts).of_run hrun

/-! ## All probes -/

def generateProbes (facts : Facts) (language : Language)
    (probes : List Logical.Probe) : Step Workspace Unit :=
  Step.sequence (probes.map (generateProbe facts language))

section Run

variable {facts : Facts} {language : Language}

theorem runFrom_generateProbes_cons_ok {input : Logical.Probe}
    {rest : List Logical.Probe} {w u : Workspace} :
    (generateProbes facts language (input :: rest)).runFrom w = (.ok (), u) ↔
      ∃ probe v, w.lowerProbe facts language input = (.ok probe, v) ∧
        (generateProbes facts language rest).runFrom (v.addProbe probe) =
          (.ok (), u) := by
  unfold generateProbes
  rw [List.map_cons, Step.runFrom_sequence_cons_ok]
  constructor
  · rintro ⟨t, hgenerate, hrest⟩
    obtain ⟨probe, v, hprobe, rfl⟩ := generateProbe_ok.mp hgenerate
    exact ⟨probe, v, hprobe, hrest⟩
  · rintro ⟨probe, v, hprobe, hrest⟩
    exact ⟨v.addProbe probe, generateProbe_ok.mpr ⟨probe, v, hprobe, rfl⟩, hrest⟩

theorem runFrom_generateProbes_append_ok {before after : List Logical.Probe}
    {w u : Workspace} :
    (generateProbes facts language (before ++ after)).runFrom w = (.ok (), u) ↔
      ∃ v, (generateProbes facts language before).runFrom w = (.ok (), v) ∧
        (generateProbes facts language after).runFrom v = (.ok (), u) := by
  unfold generateProbes
  rw [List.map_append, Step.runFrom_sequence_append_ok]

theorem exists_probes_of_run {probes : List Logical.Probe} {w u : Workspace}
    (h : (generateProbes facts language probes).runFrom w = (.ok (), u)) :
    ∃ lowered, u.program.probes = w.program.probes ++ lowered ∧
      lowered.length = probes.length := by
  induction probes generalizing w with
  | nil =>
      cases h
      exact ⟨[], by simp⟩
  | cons input rest ih =>
      obtain ⟨probe, v, hprobe, hrest⟩ := runFrom_generateProbes_cons_ok.mp h
      obtain ⟨lowered, hlowered, hlength⟩ := ih hrest
      have hsame : v.program.probes = w.program.probes :=
        sameProbes_of_lowerProbe hprobe
      refine ⟨probe :: lowered, ?_, by simp [hlength]⟩
      rw [hlowered]
      simp [addProbe, hsame]

/-- What every lowered probe keeps is kept by a run. -/
theorem invariant_of_run {I : List Logical.Probe → Workspace → Prop}
    (hstep : ∀ done input w v probe, I done w →
      w.lowerProbe facts language input = (.ok probe, v) →
      I (done ++ [input]) (v.addProbe probe))
    {probes : List Logical.Probe} {w u : Workspace} (hw : I [] w)
    (h : (generateProbes facts language probes).runFrom w = (.ok (), u)) :
    I probes u := by
  suffices hrest : ∀ rest done w, I done w →
      (generateProbes facts language rest).runFrom w = (.ok (), u) →
      I (done ++ rest) u by
    simpa using hrest probes [] w hw h
  intro rest
  induction rest with
  | nil =>
      intro done w hw h
      cases h
      simpa using hw
  | cons input rest ih =>
      intro done w hw h
      obtain ⟨probe, v, hprobe, hrest⟩ := runFrom_generateProbes_cons_ok.mp h
      simpa using ih _ _ (hstep done input w v probe hw hprobe) hrest

theorem exists_lowered_at {before after : List Logical.Probe}
    {input : Logical.Probe} {w u : Workspace}
    (h : (generateProbes facts language (before ++ input :: after)).runFrom w =
      (.ok (), u)) :
    ∃ v probe v' later,
      (generateProbes facts language before).runFrom w = (.ok (), v) ∧
      v.lowerProbe facts language input = (.ok probe, v') ∧
      (generateProbes facts language after).runFrom (v'.addProbe probe) =
        (.ok (), u) ∧
      u.program.probes = v.program.probes ++ probe :: later := by
  obtain ⟨v, hbefore, hrest⟩ := runFrom_generateProbes_append_ok.mp h
  obtain ⟨probe, v', hprobe, hafter⟩ := runFrom_generateProbes_cons_ok.mp hrest
  obtain ⟨later, hlater, -⟩ := exists_probes_of_run hafter
  have hsame : v'.program.probes = v.program.probes := sameProbes_of_lowerProbe hprobe
  refine ⟨v, probe, v', later, hbefore, hprobe, hafter, ?_⟩
  rw [hlater]
  simp [addProbe, hsame]

theorem exists_lowered_of_split {probes : List Logical.Probe} {w u : Workspace}
    (h : (generateProbes facts language probes).runFrom w = (.ok (), u))
    (hw : w.program.probes = []) {before after : List Physical.Probe}
    {probe : Physical.Probe} (hsplit : u.program.probes = before ++ probe :: after) :
    ∃ earlier input later v v', probes = earlier ++ input :: later ∧
      (generateProbes facts language earlier).runFrom w = (.ok (), v) ∧
      v.program.probes = before ∧
      v.lowerProbe facts language input = (.ok probe, v') ∧
      (generateProbes facts language later).runFrom (v'.addProbe probe) =
        (.ok (), u) := by
  obtain ⟨lowered, hlowered, hlength⟩ := exists_probes_of_run h
  rw [hw, List.nil_append] at hlowered
  have hbound : before.length < probes.length := by
    rw [← hlength, ← hlowered, hsplit]
    simp
  have hprobes : probes = probes.take before.length ++
      probes[before.length] :: probes.drop (before.length + 1) := by simp
  rw [hprobes] at h
  obtain ⟨v, found, v', rest, hbefore, hprobe, hafter, hu⟩ := exists_lowered_at h
  obtain ⟨earlier, hearlier, hcount⟩ := exists_probes_of_run hbefore
  rw [hw, List.nil_append] at hearlier
  have hsame : v.program.probes = before ∧ found :: rest = probe :: after := by
    apply List.append_inj (hu.symm.trans hsplit)
    rw [hearlier, hcount]
    simp
    omega
  obtain ⟨hv, hcons⟩ := hsame
  cases hcons
  exact ⟨_, _, _, v, v', hprobes, hbefore, hv, hprobe, hafter⟩

end Run

end Workspace

theorem lowerDeployment_ok {facts : Facts} {deployment : Logical.Deployment}
    {program : Physical.Program} :
    lowerDeployment facts deployment = .ok program ↔
      ∃ input u, deployment.tracepoints = [input] ∧
        (Workspace.generateProbes facts input.language input.probes).runFrom
          (Workspace.ofProgram deployment.target input) = (.ok (), u) ∧
        u.program = program := by
  unfold lowerDeployment Logical.Deployment.program?
  constructor
  · intro h
    split at h
    next => contradiction
    next input hinput =>
      split at hinput
      next single hsingle =>
        cases hinput
        simp only [Step.forM_eq_sequence] at h
        split at h
        next => contradiction
        next u hrun =>
          cases h
          exact ⟨input, u, hsingle, hrun, rfl⟩
      next => contradiction
  · rintro ⟨input, u, hsingle, hrun, rfl⟩
    rw [Workspace.generateProbes] at hrun
    simp [hsingle, Step.forM_eq_sequence, hrun]

/-! ## A traced call -/

def callSnapshot : Snapshot :=
  ((({} : Snapshot).withArg "main.Serve" "req" ⟨0, .pointer, "main.Request"⟩).withArg
    "main.Serve" "~r0" ⟨16, .base, "int32"⟩).withMember
    "main.Request" "id" ⟨8, .base, "int64"⟩

def callFacts : Facts := callSnapshot.facts

def callEntry : Logical.Probe where
  name := "serve_entry"
  tracepoint := ⟨"main.Serve", .entry⟩
  args := [⟨"id", "req.id"⟩]
  stashes := [{ mapName := "calls", key := .goid, valueVariables := ["time_", "id"] }]

def callReturn : Logical.Probe where
  name := "serve_return"
  tracepoint := ⟨"main.Serve", .onReturn⟩
  args := [⟨"id", "req.id"⟩]
  retVals := [⟨"status", "$0"⟩]
  mapVals := [⟨"calls", .goid, ["start_ktime_ns", "entry_id"]⟩]
  latency := some ⟨"nanos"⟩
  deletes := [⟨"calls", .goid⟩]
  outputs := [⟨"events", ["id", "status", "nanos"]⟩]

def callInput : Logical.Program where
  language := .go
  maps := [{ name := "calls" }]
  outputs := [⟨"events", ["id", "status", "nanos"]⟩]
  probes := [callEntry, callReturn]

def callTracing : Logical.Deployment := ⟨⟨"/usr/bin/server"⟩, [callInput]⟩

def callWorkspace : Workspace :=
  ((Workspace.generateProbe callFacts .go callEntry).runFrom
    (Workspace.ofProgram callTracing.target callInput)).2

def callProgram : Physical.Program :=
  (lowerDeployment callFacts callTracing).toOption.getD {}

theorem eq_ok_of_isSome {ε α : Type} {outcome : Except ε α} (default : α)
    (h : outcome.toOption.isSome) : outcome = .ok (outcome.toOption.getD default) := by
  cases outcome with
  | error e => contradiction
  | ok a => rfl

theorem lowerDeployment_callTracing :
    lowerDeployment callFacts callTracing = .ok callProgram :=
  eq_ok_of_isSome _ (by decide +kernel)

theorem exists_lowerProbe_callReturn :
    ∃ probe v, callWorkspace.lowerProbe callFacts .go callReturn = (.ok probe, v) := by
  have hok : (callWorkspace.lowerProbe callFacts .go callReturn).1.toOption.isSome := by
    decide +kernel
  rcases hrun : callWorkspace.lowerProbe callFacts .go callReturn with ⟨_ | probe, v⟩
  · rw [hrun] at hok
    contradiction
  · exact ⟨probe, v, rfl⟩

end ProbeLowering
