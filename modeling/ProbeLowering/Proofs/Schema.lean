import ProbeLowering.Proofs.RecordAction

/-!
# Schemas of the records of a program

All probes share the records of the program, and a stash or output replaces the
record of its name.  At every point of a run the record of a name is the layout
that was last written under it (`Build.Recorded`).  A probe thus writes with the
layouts of the program, and reads with them, as far as no later probe writes the
same record with another layout (`schemas_of_program`).
-/

namespace ProbeLowering

open DebugInfo
open Physical (Struct StructVariable)
open Logical (RecordAction)

def Physical.Struct.KeptBy (s : Struct) (probes : List Physical.Probe) : Prop :=
  ∀ later ∈ probes.flatMap Physical.Probe.layouts, later.name = s.name → later = s

/-- The program has every record as it was written last. -/
structure Workspace.Recorded (w : Workspace) : Prop where
  indexed : w.StructsIndexed
  latest : ∀ name, w.program.findStruct? name =
    w.program.layouts.findRev? (·.name == name)

namespace Build

structure Recorded (b : Build) : Prop where
  consistent : b.scope.Consistent
  closed : b.scope.probe.Closed
  indexed : b.workspace.StructsIndexed
  latest : ∀ name, b.workspace.program.findStruct? name =
    (b.workspace.program.layouts ++ b.scope.probe.layouts).findRev? (·.name == name)

namespace Recorded

variable {b c : Build}

theorem writes (h : b.Recorded) {v : StructVariable} {written : Struct}
    (hwrites : Writes b c v written) :
    c.Recorded ∧ c.scope.probe.records = b.scope.probe.records ++ [v] := by
  obtain ⟨hlayout, hvars, hconsistent, hworkspace, -⟩ := hwrites
  have hprefix : b.scope.probe.vars <+: c.scope.probe.vars := ⟨_, hvars.symm⟩
  have hnew : c.scope.probe.layout? v = some written :=
    Physical.Probe.layout?_of_prefix hprefix hlayout
  have hrecords : c.scope.probe.records = b.scope.probe.records ++ [v] := by
    simp [Physical.Probe.records, hvars, Physical.Variable.struct?]
  have hlayouts : c.scope.probe.layouts = b.scope.probe.layouts ++ [written] := by
    rw [Physical.Probe.layouts_of_prefix hprefix h.closed hrecords]
    simp [hnew]
  have hprobes : c.workspace.program.layouts = b.workspace.program.layouts := by
    have hsame := Workspace.sameProbes_registerStruct b.workspace written
    rw [Physical.Program.layouts, hworkspace.probes, hsame, Physical.Program.layouts]
  refine ⟨⟨hconsistent h.consistent, ?_, ?_, ?_⟩, hrecords⟩
  · intro next hnext
    rw [hrecords, List.mem_append, List.mem_singleton] at hnext
    rcases hnext with hnext | rfl
    · obtain ⟨s, hs⟩ := h.closed next hnext
      exact ⟨s, Physical.Probe.layout?_of_prefix hprefix hs⟩
    · exact ⟨written, hnew⟩
  · exact hworkspace.sameStructs.structsIndexed (h.indexed.registerStruct written)
  · intro name
    rw [hworkspace.sameStructs.findStruct?_eq, h.indexed.findStruct?_registerStruct,
      h.latest, hprobes, hlayouts, ← List.append_assoc, findRev?_concat]

theorem frame (h : b.Recorded) (hworkspace : b.workspace = c.workspace)
    (hscope : b.Extends (fun _ => False) c) :
    c.Recorded ∧ c.scope.probe.records = b.scope.probe.records := by
  obtain ⟨⟨added, hvars, hadded⟩, hconsistent⟩ := hscope
  have hnil : added = [] := List.eq_nil_iff_forall_not_mem.mpr hadded
  have hprefix : b.scope.probe.vars <+: c.scope.probe.vars := ⟨_, hvars.symm⟩
  have hrecords : c.scope.probe.records = b.scope.probe.records := by
    simp [Physical.Probe.records, hvars, hnil]
  have hlayouts : c.scope.probe.layouts = b.scope.probe.layouts := by
    have hnone : c.scope.probe.records = b.scope.probe.records ++ [] := by
      rw [hrecords, List.append_nil]
    simpa using Physical.Probe.layouts_of_prefix hprefix h.closed hnone
  refine ⟨⟨hconsistent h.consistent, ?_, hworkspace ▸ h.indexed, ?_⟩, hrecords⟩
  · intro v hv
    obtain ⟨s, hs⟩ := h.closed v (hrecords ▸ hv)
    exact ⟨s, Physical.Probe.layout?_of_prefix hprefix hs⟩
  · rw [← hworkspace, hlayouts]
    exact h.latest

theorem recordActions (h : b.Recorded) {language : Language}
    {actions : List RecordAction}
    (hrun : (Step.sequence (actions.map fun action => action.step language)).runFrom b =
      (.ok (), c)) :
    c.Recorded ∧ c.workspace.outputFields = b.workspace.outputFields ∧
      c.scope.probe.records = b.scope.probe.records ++
        actions.map fun action => action.record language b.workspace.outputFields := by
  induction actions generalizing b with
  | nil =>
      cases hrun
      simpa using h
  | cons action rest ih =>
      obtain ⟨t, hstep, hrest⟩ := Step.runFrom_sequence_cons_ok.mp hrun
      obtain ⟨written, hwrites⟩ := writes_of_recordAction h.consistent hstep
      obtain ⟨ht, hrecords⟩ := h.writes hwrites
      obtain ⟨hc, hfields, hrecords'⟩ := ih ht hrest
      rw [hwrites.outputFields] at hfields hrecords'
      exact ⟨hc, hfields, by simp [hrecords', hrecords]⟩

theorem deletes (h : b.Recorded) {actions : List Logical.DeleteAction}
    (hrun : (Step.sequence (actions.map delete)).runFrom b = (.ok (), c)) :
    c.Recorded ∧ c.workspace = b.workspace ∧
      c.scope.probe.records = b.scope.probe.records := by
  induction actions generalizing b with
  | nil =>
      cases hrun
      exact ⟨h, rfl, rfl⟩
  | cons action rest ih =>
      obtain ⟨t, hdelete, hrest⟩ := Step.runFrom_sequence_cons_ok.mp hrun
      have hworkspace := (delete_ok hdelete).2.2.1
      obtain ⟨ht, hrecords⟩ :=
        h.frame hworkspace.symm ((keeps_delete action).of_run hdelete)
      obtain ⟨hc, hworkspace', hrecords'⟩ := ih ht hrest
      exact ⟨hc, hworkspace'.trans hworkspace, hrecords'.trans hrecords⟩

theorem writeParts (h : b.Recorded) {language : Language} {input : Logical.Probe}
    (hrun : (Step.sequence (Build.writeParts language input)).runFrom b = (.ok (), c)) :
    c.Recorded ∧ c.workspace.outputFields = b.workspace.outputFields ∧
      c.scope.probe.records = b.scope.probe.records ++
        input.recordActions.map fun action =>
          action.record language b.workspace.outputFields := by
  obtain ⟨b₃, hrun, hprintks⟩ := Step.runFrom_sequence_append_ok.mp hrun
  obtain ⟨b₂, hrun, houtputs⟩ := Step.runFrom_sequence_append_ok.mp hrun
  obtain ⟨b₁, hstashes, hdeletes⟩ := Step.runFrom_sequence_append_ok.mp hrun
  have hstashes' : (Step.sequence ((input.stashes.map RecordAction.stash).map
      fun action => action.step language)).runFrom b = (.ok (), b₁) := by
    rw [List.map_map]
    exact hstashes
  have houtputs' : (Step.sequence ((input.outputs.map RecordAction.output).map
      fun action => action.step language)).runFrom b₂ = (.ok (), b₃) := by
    rw [List.map_map]
    exact houtputs
  obtain ⟨h₁, hfields₁, hrecords₁⟩ := h.recordActions hstashes'
  obtain ⟨h₂, hworkspace₂, hrecords₂⟩ := h₁.deletes hdeletes
  obtain ⟨h₃, hfields₃, hrecords₃⟩ := h₂.recordActions houtputs'
  rw [Step.sequence_singleton] at hprintks
  have hextends : b₃.Extends (fun _ => False) c := by
    refine Step.Keeps.of_run (keeps_changeProbe ?_) hprintks
    intro probe
    rfl
  have hworkspace : c.workspace = b₃.workspace := by
    cases hprintks
    rfl
  obtain ⟨hc, hrecords⟩ := h₃.frame hworkspace.symm hextends
  rw [hworkspace₂, hfields₁] at hfields₃ hrecords₃
  refine ⟨hc, by rw [hworkspace, hfields₃], ?_⟩
  rw [hrecords, hrecords₃, hrecords₂, hrecords₁, Logical.Probe.recordActions,
    List.map_append, List.append_assoc]

end Recorded

end Build

/-! ## Lowered probes -/

namespace Workspace

section Lowered

variable {facts : Facts} {language : Language} {input : Logical.Probe}
  {w v u : Workspace} {probe : Physical.Probe}

theorem Recorded.lowerProbe (hw : w.Recorded)
    (h : w.lowerProbe facts language input = (.ok probe, v)) :
    (v.addProbe probe).Recorded ∧ (v.addProbe probe).outputFields = w.outputFields ∧
      probe.Closed ∧
      probe.records = input.recordActions.map fun action =>
        action.record language w.outputFields := by
  have hprobes : v.program.layouts = w.program.layouts := by
    have hsame : v.program.probes = w.program.probes := sameProbes_of_lowerProbe h
    rw [Physical.Program.layouts, hsame, Physical.Program.layouts]
  obtain ⟨b, c, declared, latency, hwrites, rfl, hconsistent, hvars, hscalars, -, rfl,
    rfl⟩ := exists_write_phase h
  -- No phase before the writes declares a record.
  have hnone : b.scope.probe.records = [] := by
    rw [List.eq_nil_iff_forall_not_mem]
    intro record hrecord
    rw [Physical.Probe.mem_records, hvars] at hrecord
    simp only [List.mem_append, List.mem_flatMap] at hrecord
    rcases hrecord with (hrecord | ⟨value, -, hrecord⟩) | hrecord
    · obtain ⟨scalar, hscalar⟩ := hscalars _ (List.mem_append_left _ hrecord)
      cases hscalar
    · unfold Build.readVariablesIn at hrecord
      split at hrecord
      next => cases hrecord
      next => simp [Build.readVariables] at hrecord
    · obtain ⟨scalar, hscalar⟩ := hscalars _ (List.mem_append_right _ hrecord)
      cases hscalar
  have hb : b.Recorded := by
    refine ⟨hconsistent, ?_, hw.indexed, ?_⟩
    · simp [Physical.Probe.Closed, hnone]
    · simpa [Physical.Probe.layouts, hnone] using hw.latest
  obtain ⟨hc, hfields, hrecords⟩ := hb.writeParts hwrites
  refine ⟨⟨hc.indexed, fun name => ?_⟩, hfields, hc.closed, ?_⟩
  · have hlayouts : (c.workspace.addProbe c.scope.probe).program.layouts =
        c.workspace.program.layouts ++ c.scope.probe.layouts := by
      simp [Physical.Program.layouts, addProbe]
    rw [hlayouts]
    exact hc.latest name
  · rw [hrecords, hnone, List.nil_append]

theorem Recorded.run {probes : List Logical.Probe} (hw : w.Recorded)
    (h : (generateProbes facts language probes).runFrom w = (.ok (), u)) :
    u.Recorded :=
  invariant_of_run (I := fun _ w => w.Recorded)
    (fun _ _ _ _ _ hw hprobe => (hw.lowerProbe hprobe).1) hw h

theorem recorded_ofProgram (target : Target) (input : Logical.Program) :
    (ofProgram target input).Recorded := by
  have hsame := ofProgram_sameRecords target input
  constructor
  · exact hsame.sameStructs.structsIndexed fun name => rfl
  · intro name
    rw [hsame.sameStructs.findStruct?_eq, Physical.Program.layouts, hsame.probes]
    rfl

theorem Recorded.record_eq (hw : w.Recorded)
    (h : w.lowerProbe facts language input = (.ok probe, v))
    {first second : StructVariable} (hfirst : first ∈ probe.records)
    (hsecond : second ∈ probe.records) (htype : first.structType = second.structType) :
    first = second := by
  obtain ⟨-, -, -, hrecords⟩ := hw.lowerProbe h
  obtain ⟨scope, hscope, rfl⟩ := consistent_of_lowerProbe h
  have hname : first.name = second.name := by
    rw [hrecords] at hfirst hsecond
    obtain ⟨a, -, rfl⟩ := List.mem_map.mp hfirst
    obtain ⟨a', -, rfl⟩ := List.mem_map.mp hsecond
    have howner : a.owner = a'.owner := structTypeName_inj.mp htype
    simp [RecordAction.record, howner]
  have heq := List.inj_on_of_nodup_map hscope.nodup
    (Physical.Probe.mem_records.mp hfirst) (Physical.Probe.mem_records.mp hsecond) hname
  cases heq
  rfl

end Lowered

end Workspace

/-- What the records of a program have to do with its probes. -/
structure Physical.Program.SchemaConsistent (program : Physical.Program) : Prop where
  /-- The record of a name is the layout that was last written under it. -/
  latest : ∀ name, program.findStruct? name =
    program.layouts.findRev? (·.name == name)
  /--
  A probe writes a record with a layout of its own scalars, which is the one of
  the program unless a later probe writes the record differently.
  -/
  writes : ∀ before probe after, program.probes = before ++ probe :: after →
    ∀ v, .struct v ∈ probe.vars → ∃ s, probe.layout? v = some s ∧
      (s.KeptBy after → program.findStruct? v.structType = some s)
  /--
  A probe reads a map with the layout that earlier probes last wrote, which is the
  one of the program unless the probe itself or a later one writes differently.
  -/
  reads : ∀ before probe after, program.probes = before ++ probe :: after →
    ∀ x, .member x ∈ probe.vars → ∃ handle s, .map handle ∈ probe.vars ∧
      handle.name = x.structBase ∧
      (before.flatMap Physical.Probe.layouts).findRev?
        (·.name == handle.structType) = some s ∧
      ⟨x.field, x.type⟩ ∈ s.fields ∧
      (s.KeptBy (probe :: after) →
        program.findStruct? handle.structType = some s)

theorem schemas_of_program {facts : Facts} {deployment : Logical.Deployment}
    {program : Physical.Program}
    (h : lowerDeployment facts deployment = .ok program) :
    program.SchemaConsistent := by
  obtain ⟨input, u, -, hrun, rfl⟩ := lowerDeployment_ok.mp h
  have hstart := Workspace.recorded_ofProgram deployment.target input
  have hlatest := (hstart.run hrun).latest
  have hsplit : ∀ {before probe after}, u.program.probes = before ++ probe :: after →
      u.program.layouts = before.flatMap Physical.Probe.layouts ++ probe.layouts ++
        after.flatMap Physical.Probe.layouts := by
    intro before probe after hprobes
    simp [Physical.Program.layouts, hprobes]
  refine ⟨hlatest, ?_, ?_⟩
  · intro before probe after hprobes record hrecord
    obtain ⟨earlier, _, _, w, v, -, hearlier, rfl, hlowered, -⟩ :=
      Workspace.exists_lowered_of_split hrun (by simp) hprobes
    have hw := hstart.run hearlier
    obtain ⟨-, -, hclosed, -⟩ := hw.lowerProbe hlowered
    rw [← Physical.Probe.mem_records] at hrecord
    obtain ⟨s, hs⟩ := hclosed record hrecord
    have hname := Physical.Probe.name_of_layout? hs
    refine ⟨s, hs, fun hkept => ?_⟩
    rw [hlatest, hsplit hprobes, ← hname]
    -- Later probes keep the layout, and the probe itself writes the record once.
    refine findRev?_append_of_forall hkept (findRev?_append_of_mem ?_ ?_)
    · exact List.mem_filterMap.mpr ⟨record, hrecord, hs⟩
    · intro t ht htname
      obtain ⟨record', hrecord', ht⟩ := List.mem_filterMap.mp ht
      rw [Physical.Probe.name_of_layout? ht, hname] at htname
      rw [hw.record_eq hlowered hrecord' hrecord htname, hs] at ht
      exact (Option.some.inj ht).symm
  · intro before probe after hprobes x hx
    obtain ⟨earlier, _, _, w, v, -, hearlier, rfl, hlowered, -⟩ :=
      Workspace.exists_lowered_of_split hrun (by simp) hprobes
    have hw := hstart.run hearlier
    obtain ⟨hreads, hmembers⟩ := Workspace.reads_of_lowerProbe hlowered
    obtain ⟨value, hvalue, layout, hlayout, hx⟩ := hmembers x hx
    obtain ⟨layout', hlayout', -, hsubset⟩ := hreads value hvalue
    cases hlayout.symm.trans hlayout'
    obtain ⟨hbase, hfield⟩ := Build.field_of_member hx
    rw [hw.indexed.struct?_ok_iff, hw.latest] at hlayout
    have hname := key_of_findRev? hlayout
    refine ⟨_, layout, hsubset List.mem_cons_self, hbase.symm, hlayout, hfield, ?_⟩
    intro hkept
    rw [hlatest, hsplit hprobes, List.append_assoc]
    refine findRev?_append_of_forall (fun t ht htname => ?_) hlayout
    refine hkept t ?_ (htname.trans hname.symm)
    simpa using ht

theorem schemas_of_callProgram :
    callProgram.findStruct? "calls_value_t" =
        some ⟨"calls_value_t", [⟨"time_", .uint64⟩, ⟨"id", .int64⟩]⟩ ∧
      callProgram.SchemaConsistent :=
  ⟨by decide +kernel, schemas_of_program lowerDeployment_callTracing⟩

def restashInput : Logical.Program where
  language := .go
  maps := [{ name := "calls" }]
  probes := [
    { name := "first"
      tracepoint := ⟨"main.Serve", .entry⟩
      stashes := [{ mapName := "calls", key := .goid, valueVariables := ["time_"] }] },
    { name := "second"
      tracepoint := ⟨"main.Serve", .entry⟩
      stashes := [
        { mapName := "calls", key := .goid, valueVariables := ["tgid_", "time_"] }] }]

def restashProgram : Physical.Program :=
  (lowerDeployment callFacts ⟨⟨"/usr/bin/server"⟩, [restashInput]⟩).toOption.getD {}

theorem exists_record_replaced :
    lowerDeployment callFacts ⟨⟨"/usr/bin/server"⟩, [restashInput]⟩ =
        .ok restashProgram ∧
      ∃ probe ∈ restashProgram.probes, ∃ v ∈ probe.records,
        (restashProgram.findStruct? v.structType).map (·.fields.map (·.name)) ≠
          some (v.assignments.map (·.fieldName)) :=
  ⟨eq_ok_of_isSome _ (by decide +kernel), by decide +kernel⟩

end ProbeLowering
