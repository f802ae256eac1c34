import ProbeLowering.Proofs.Resolution
import ProbeLowering.Proofs.Session

/-!
# References of a program

Map reads, stashes, deletes and outputs refer to maps, outputs and records of the
program and to variables that are declared before.  What they refer to stays: later
writes replace records but no name is ever lost (`Workspace.KeepsNames`).  So all
references of a lowered program are resolved (`references_resolved`).
-/

namespace ProbeLowering

open DebugInfo
open Physical (Variable Struct PerfBuffer)
open Logical (RecordAction)

namespace Workspace

variable {w v : Workspace} {name : String}

/-- Whatever has a name in the one program has it in the other. -/
structure KeepsNames (w v : Workspace) : Prop where
  maps : w.program.maps.map MapDecl.name ⊆ v.program.maps.map MapDecl.name
  outputs : w.program.outputs.map PerfBuffer.name ⊆ v.program.outputs.map PerfBuffer.name
  structs : w.program.structs.map Struct.name ⊆ v.program.structs.map Struct.name

instance : IsPreorder Workspace KeepsNames where
  refl _ := ⟨List.Subset.refl _, List.Subset.refl _, List.Subset.refl _⟩
  trans _ _ _ h h' := ⟨List.Subset.trans h.maps h'.maps,
    List.Subset.trans h.outputs h'.outputs, List.Subset.trans h.structs h'.structs⟩

namespace KeepsNames

variable (h : w.KeepsNames v)

include h

theorem variable_resolved {before : List Variable} {x : Variable}
    (hx : x.Resolved w.program before) : x.Resolved v.program before := by
  cases x with
  | scalar x => exact hx
  | map x =>
      obtain ⟨hkey, hmap, hstruct⟩ := hx
      exact ⟨hkey, h.maps hmap, h.structs hstruct⟩
  | member x => exact hx
  | struct x =>
      obtain ⟨hassigned, hstruct⟩ := hx
      exact ⟨hassigned, h.structs hstruct⟩

theorem resolved {probe : Physical.Probe} (hprobe : probe.Resolved w.program) :
    probe.Resolved v.program where
  vars before x after hsplit := h.variable_resolved (hprobe.vars before x after hsplit)
  stashes action haction := by
    obtain ⟨hkey, hvalue, hmap⟩ := hprobe.stashes action haction
    exact ⟨hkey, hvalue, h.maps hmap⟩
  deletes action haction := by
    obtain ⟨hkey, hmap⟩ := hprobe.deletes action haction
    exact ⟨hkey, h.maps hmap⟩
  outputs action haction := by
    obtain ⟨hvalue, hbuffer⟩ := hprobe.outputs action haction
    exact ⟨hvalue, h.outputs hbuffer⟩

end KeepsNames

theorem StructsLocated.names_subset_registerStruct (h : w.StructsLocated)
    (value : Struct) :
    w.program.structs.map Struct.name ⊆
      (w.registerStruct value).program.structs.map Struct.name := by
  rw [h.names_registerStruct]
  split
  · exact List.Subset.refl _
  · exact List.subset_append_left _ _

namespace Located

variable (h : w.Located)

include h

theorem keepsNames_apply {action : RecordAction} {write : RecordWrite}
    (hfits : write.Fits w action) : w.KeepsNames (write.apply w) := by
  have hsame := h.sameDeclarations_apply hfits
  refine ⟨hsame.mapNames ▸ List.Subset.refl _, hsame.outputs ▸ List.Subset.refl _, ?_⟩
  have hstructs := (h.structs.setEntry write).names_subset_registerStruct write.record
  rwa [structs_setEntry, ← write.apply_eq] at hstructs

theorem mem_maps {entry : Nat × MapDecl} (hentry : w.map? name = .ok entry) :
    name ∈ w.program.maps.map MapDecl.name := by
  obtain ⟨hindex, hmap⟩ := map?_ok.mp hentry
  obtain rfl := h.maps.belongs hindex hmap
  exact List.mem_map_of_mem (List.mem_of_getElem? hmap)

theorem mem_outputs {entry : Nat × PerfBuffer} (hentry : w.output? name = .ok entry) :
    name ∈ w.program.outputs.map PerfBuffer.name := by
  obtain ⟨hindex, hbuffer⟩ := output?_ok.mp hentry
  obtain ⟨rfl, -⟩ := h.outputs.belongs hindex hbuffer
  exact List.mem_map_of_mem (List.mem_of_getElem? hbuffer)

theorem mem_structs {value : Struct} (hvalue : w.struct? name = .ok value) :
    name ∈ w.program.structs.map Struct.name := by
  obtain ⟨i, hi, hfound⟩ := struct?_ok.mp hvalue
  obtain rfl := h.structs.belongs hi hfound
  exact List.mem_map_of_mem (List.mem_of_getElem? hfound)

end Located

end Workspace

theorem Physical.Probe.exists_of_fields? {probe : Physical.Probe}
    {assignments : List Physical.FieldAssignment} {fields : List Physical.StructField}
    (h : probe.fields? assignments = some fields) {assignment : Physical.FieldAssignment}
    (hassignment : assignment ∈ assignments) :
    ∃ x ∈ probe.vars, x.name = assignment.variableName ∧
      ((∃ y, x = .scalar y) ∨ ∃ y, x = .member y) := by
  induction assignments generalizing fields with
  | nil => cases hassignment
  | cons first rest ih =>
      obtain ⟨type, tail, htype, htail, -⟩ := fields?_cons_eq_some.mp h
      rcases List.mem_cons.mp hassignment with rfl | hrest
      · obtain ⟨x, hx, hscalar⟩ := Option.bind_eq_some_iff.mp htype
        refine ⟨x, List.mem_of_find?_eq_some hx, by simpa using List.find?_some hx, ?_⟩
        cases x with
        | scalar y => exact .inl ⟨y, rfl⟩
        | member y => exact .inr ⟨y, rfl⟩
        | map y => cases hscalar
        | struct y => cases hscalar
      · exact ih htail hrest

/-! ## Builds -/

namespace Build

/-- All references of the probe under construction are resolved in the workspace. -/
structure Resolved (b : Build) : Prop where
  located : b.workspace.Located
  consistent : b.scope.Consistent
  probe : b.scope.probe.Resolved b.workspace.program

namespace Resolved

variable {b c : Build} (hb : b.Resolved)

include hb

theorem readMap {value : Logical.MapValue}
    (h : (Build.readMap value).runFrom b = (.ok (), c)) : c.Resolved := by
  have hextends := (keeps_readMap (P := fun _ => True) (fun _ => trivial)
    (fun _ => trivial) value).of_run h
  obtain ⟨layout, hlayout, hkey, hworkspace, hprobe⟩ := readMap_ok h
  obtain ⟨⟨entry, hentry⟩, hstruct, -⟩ := readLayout_ok hlayout
  refine ⟨hworkspace ▸ hb.located, hextends.consistent hb.consistent, ?_⟩
  rw [hworkspace, hprobe]
  refine hb.probe.append fun before v after hsplit => ?_
  cases before with
  | nil =>
      obtain ⟨rfl, -⟩ := List.cons.inj hsplit
      refine ⟨?_, hb.located.mem_maps hentry, hb.located.mem_structs hstruct⟩
      simpa using hb.consistent.contains_iff.mp hkey
  | cons first rest =>
      -- Every member follows the handle, which comes first.
      obtain ⟨rfl, hmembers⟩ := List.cons.inj hsplit
      have hv : v ∈ rest ++ v :: after := List.mem_append_right rest List.mem_cons_self
      replace hmembers : _ = rest ++ v :: after := hmembers
      rw [← hmembers] at hv
      obtain ⟨⟨id, field⟩, -, rfl⟩ := List.mem_map.mp hv
      exact ⟨⟨mapHandleName value.mapName, structTypeName value.mapName, value.mapName,
        value.key.variableName⟩, by simp, rfl⟩

theorem addLatency {latency : FunctionLatency}
    (h : (onScope (Scope.addLatency latency)).runFrom b = (.ok (), c)) : c.Resolved := by
  have hextends := (keeps_onScope (Scope.keeps_addLatency (P := fun _ => True)
    (fun _ => trivial) latency)).of_run h
  obtain ⟨hscope, hworkspace⟩ := runFrom_onScope_ok.mp h
  obtain ⟨_, t, hvariable, hlatency⟩ := Step.runFrom_bind_ok.mp hscope
  have hprobe := Scope.probe_of_addVariable hvariable
  have ht : t.probe.Resolved c.workspace.program := by
    rw [hprobe, hworkspace]
    exact hb.probe.concat (by rintro base offset ⟨⟩)
  refine ⟨hworkspace ▸ hb.located, hextends.consistent hb.consistent, ?_⟩
  obtain ⟨-, hc⟩ := Prod.mk.inj hlatency
  rw [← hc]
  exact ⟨ht.vars, ht.stashes, ht.deletes, ht.outputs⟩

theorem record {action : RecordAction} {write : RecordWrite}
    (hfits : write.Fits b.workspace action)
    (hworkspace : c.workspace = write.apply b.workspace) {language : Language}
    {written : Struct}
    (hwrites : Writes b c (action.record language b.workspace.outputFields) written)
    {v : Variable} (hvars : c.scope.probe.vars = b.scope.probe.vars ++ [v]) :
    c.workspace.Located ∧ b.workspace.KeepsNames c.workspace ∧
      Physical.Probe.Resolved c.workspace.program
        { b.scope.probe with vars := b.scope.probe.vars ++ [v] } := by
  have hlocated : c.workspace.Located := hworkspace ▸ hb.located.apply hfits
  have hkeeps : b.workspace.KeepsNames c.workspace :=
    hworkspace ▸ hb.located.keepsNames_apply hfits
  have hv : v.Resolved c.workspace.program b.scope.probe.vars := by
    obtain ⟨rfl, -⟩ := List.cons.inj
      (List.append_cancel_left (hvars.symm.trans hwrites.vars))
    refine ⟨fun assignment hassignment => ?_, ?_⟩
    · exact Physical.Probe.exists_of_fields?
        (Physical.Probe.fields_of_layout? hwrites.layout) hassignment
    · have hstruct := hb.located.structs.struct?_apply write write.record.name
      rw [if_pos rfl, ← hworkspace] at hstruct
      have hname := hlocated.mem_structs hstruct
      rwa [hfits.record_name] at hname
  exact ⟨hlocated, hkeeps, (hkeeps.resolved hb.probe).concat hv⟩

theorem stash {action : Logical.StashAction}
    (h : (Build.stash action).runFrom b = (.ok (), c)) : c.Resolved := by
  obtain ⟨written, hwrites⟩ : ∃ written, Writes b c
      ((RecordAction.stash action).record .unknown b.workspace.outputFields) written :=
    writes_of_stash hb.consistent h
  obtain ⟨index, map, record, hrecord, hkey, hworkspace, hprobe⟩ := stash_ok h
  obtain ⟨hentry, hschema⟩ := stashRecord_ok hrecord
  have hfits : RecordWrite.Fits b.workspace (.stash action) (.map index map record) :=
    .map hentry (name_of_mapValueStruct hschema)
  obtain ⟨hlocated, hkeeps, hadded⟩ :=
    hb.record hfits hworkspace hwrites (congrArg (·.vars) hprobe)
  have hconsistent := hwrites.consistent hb.consistent
  have hkey := hconsistent.contains_iff.mp hkey
  refine ⟨hlocated, hconsistent, ?_⟩
  rw [hprobe] at hkey ⊢
  exact hadded.addStash hkey
    ⟨_, List.mem_append_right _ List.mem_cons_self, rfl⟩
    (hkeeps.maps (hb.located.mem_maps hentry))

theorem delete {action : Logical.DeleteAction}
    (h : (Build.delete action).runFrom b = (.ok (), c)) : c.Resolved := by
  have hextends := (keeps_delete (P := fun _ => True) action).of_run h
  obtain ⟨⟨entry, hentry⟩, hkey, hworkspace, hprobe⟩ := delete_ok h
  have hconsistent := hextends.consistent hb.consistent
  have hkey := hconsistent.contains_iff.mp hkey
  refine ⟨hworkspace ▸ hb.located, hconsistent, ?_⟩
  rw [hprobe] at hkey ⊢
  rw [hworkspace]
  exact hb.probe.addDelete hkey (hb.located.mem_maps hentry)

theorem output {language : Language} {action : Logical.OutputAction}
    (h : (Build.output language action).runFrom b = (.ok (), c)) : c.Resolved := by
  obtain ⟨written, hwrites⟩ : ∃ written, Writes b c
      ((RecordAction.output action).record language b.workspace.outputFields) written :=
    writes_of_output hb.consistent h
  obtain ⟨index, buffer, event, hevent, hworkspace, hprobe⟩ := output_ok h
  obtain ⟨hentry, hschema⟩ := outputRecord_ok hevent
  have hfits : RecordWrite.Fits b.workspace (.output action) (.output index buffer event) :=
    .output hentry (name_of_outputStruct hschema)
  obtain ⟨hlocated, hkeeps, hadded⟩ :=
    hb.record hfits hworkspace hwrites (congrArg (·.vars) hprobe)
  refine ⟨hlocated, hwrites.consistent hb.consistent, ?_⟩
  rw [hprobe]
  exact hadded.addOutput
    ⟨_, List.mem_append_right _ List.mem_cons_self, rfl⟩
    (hkeeps.outputs (hb.located.mem_outputs hentry))

end Resolved

theorem ensures_resolved {setting : Setting} {input : Logical.Probe}
    {part : Step Build Unit}
    (h : part ∈ readParts input ++ latencyParts input ++
      writeParts setting.language input) :
    Step.Ensures Resolved part fun _ => Resolved := by
  intro b _ c hb hrun
  simp only [readParts, latencyParts, writeParts, List.mem_append, List.mem_map,
    List.mem_singleton, Function.comp_apply] at h
  rcases h with (⟨value, -, rfl⟩ | ⟨latency, -, rfl⟩) |
    ((⟨action, -, rfl⟩ | ⟨action, -, rfl⟩) | ⟨action, -, rfl⟩) | rfl
  · exact hb.readMap hrun
  · exact hb.addLatency hrun
  · exact hb.stash hrun
  · exact hb.delete hrun
  · exact hb.output hrun
  · cases hrun
    obtain ⟨hlocated, hconsistent, hprobe⟩ := hb
    exact ⟨hlocated, hconsistent,
      ⟨hprobe.vars, hprobe.stashes, hprobe.deletes, hprobe.outputs⟩⟩

end Build

namespace Workspace

variable {facts : Facts} {language : Language} {input : Logical.Probe} {w v : Workspace}
  {probe : Physical.Probe}

theorem resolved_of_lowerProbe (hw : w.Located)
    (h : w.lowerProbe facts language input = (.ok probe, v)) : probe.Resolved v.program := by
  obtain ⟨setting, c, -, hrun, rfl, rfl⟩ := lowerProbe_ok.mp h
  have hparts : Build.parts setting input = Build.declareParts setting input ++
      (Build.readParts input ++ Build.latencyParts input ++
        Build.writeParts setting.language input) := by
    simp [Build.parts]
  rw [hparts] at hrun
  obtain ⟨b, hdeclares, hrest⟩ := Step.runFrom_sequence_append_ok.mp hrun
  have hstart : (Scope.start input.name input.tracepoint).probe.Resolved w.program :=
    ⟨by simp [Scope.start], by simp [Scope.start], by simp [Scope.start],
      by simp [Scope.start]⟩
  obtain ⟨hgrounded, hworkspace⟩ := Build.ensures_declareParts setting input w _ _ _
    ⟨⟨rfl, Scope.consistent_start _ _, hstart⟩, rfl⟩ hdeclares
  have hb : b.Resolved :=
    ⟨hworkspace ▸ hw, hgrounded.consistent, hworkspace ▸ hgrounded.resolved⟩
  have hc := (Step.Ensures.sequence fun _ => Build.ensures_resolved) _ _ _ hb hrest
  exact hc.probe

theorem keepsNames_of_lowerProbe (hw : w.Located)
    (h : w.lowerProbe facts language input = (.ok probe, v)) :
    v.Located ∧ w.KeepsNames v := by
  have hrelated : Under Located KeepsNames w (w.lowerProbe facts language input).2 :=
    related_of_lowerProbe (fun _ _ _ _ hfits hw =>
      ⟨hw.apply hfits, hw.keepsNames_apply hfits⟩) w
  rw [h] at hrelated
  exact hrelated hw

theorem resolved_addProbe (hw : w.Located)
    (hresolved : ∀ earlier ∈ w.program.probes, earlier.Resolved w.program)
    (h : w.lowerProbe facts language input = (.ok probe, v)) :
    ∀ added ∈ (v.addProbe probe).program.probes,
      added.Resolved (v.addProbe probe).program := by
  obtain ⟨-, hkeeps⟩ := keepsNames_of_lowerProbe hw h
  have hsame : v.program.probes = w.program.probes := sameProbes_of_lowerProbe h
  have hadd : v.KeepsNames (v.addProbe probe) :=
    ⟨List.Subset.refl _, List.Subset.refl _, List.Subset.refl _⟩
  intro added hadded
  simp only [addProbe, hsame, List.mem_append, List.mem_singleton] at hadded
  rcases hadded with hadded | rfl
  · exact hadd.resolved (hkeeps.resolved (hresolved added hadded))
  · exact hadd.resolved (resolved_of_lowerProbe hw h)

end Workspace

/-- In a lowered program whatever is referred to is there, variables before their use. -/
theorem references_resolved {facts : Facts} {deployment : Logical.Deployment}
    {program : Physical.Program} (h : lowerDeployment facts deployment = .ok program) :
    ∀ probe ∈ program.probes, probe.Resolved program := by
  obtain ⟨input, u, -, hrun, rfl⟩ := lowerDeployment_ok.mp h
  have hstart : (Workspace.ofProgram deployment.target input).Reachable facts
      input.language := ⟨_, [.declareMaps input.maps, .declareOutputs input.outputs], rfl⟩
  have hend : u.Located ∧ ∀ probe ∈ u.program.probes, probe.Resolved u.program :=
    Workspace.invariant_of_run
      (I := fun _ w => w.Located ∧ ∀ probe ∈ w.program.probes, probe.Resolved w.program)
      (fun _ _ _ _ probe hw hlowered =>
        ⟨(Workspace.keepsNames_of_lowerProbe hw.1 hlowered).1.addProbe probe,
          Workspace.resolved_addProbe hw.1 hw.2 hlowered⟩)
      ⟨hstart.located, by simp⟩ hrun
  exact hend.2

theorem references_resolved_callProgram :
    lowerDeployment callFacts callTracing = .ok callProgram ∧
      callProgram.probes.map (fun probe => (probe.vars.length, probe.stashes.length,
        probe.deletes.length, probe.outputs.length)) = [(9, 1, 0, 0), (14, 0, 1, 1)] ∧
      ∀ probe ∈ callProgram.probes, probe.Resolved callProgram :=
  ⟨lowerDeployment_callTracing, by decide +kernel,
    references_resolved lowerDeployment_callTracing⟩

end ProbeLowering
