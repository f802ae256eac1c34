import ProbeLowering.Proofs.Schema

/-!
# What map reads see

A map read takes the fields of the record that is registered under the name of
the map.  Maps and outputs share these names, so this is the record of the last
action before the read that wrote to the map or to an output of the same name,
and its fields have the types that the variables written there had in the probe
that wrote them (`map_reads_last_write`).
-/

namespace ProbeLowering

open DebugInfo
open Physical (Struct)
open Logical (RecordAction)

/-- Fields of the output that is declared last under `name`. -/
def Logical.Program.outputFields (input : Logical.Program) (name : String) :
    List String :=
  ((input.outputs.findRev? (·.name == name)).map (·.fields)).getD []

namespace Workspace

def OutputsInRange (w : Workspace) : Prop :=
  ∀ name i, w.registry.outputs.lookup name = some i → i < w.program.outputs.length

theorem outputsInRange_declareOutput {w : Workspace} (h : w.OutputsInRange)
    (output : Logical.Output) : (w.declareOutput output).OutputsInRange := by
  intro name i hi
  simp only [declareOutput, List.lookup_cons] at hi
  simp only [declareOutput, List.length_append, List.length_singleton]
  split at hi
  next => simp at hi; omega
  next =>
    have := h name i hi
    omega

theorem outputFields_declareOutput {w : Workspace} (h : w.OutputsInRange)
    (output : Logical.Output) (name : String) :
    (w.declareOutput output).outputFields name =
      if output.name = name then output.fields else w.outputFields name := by
  rw [outputFields_eq, outputFields_eq]
  simp only [declareOutput, List.lookup_cons]
  by_cases hname : output.name = name
  · simp [hname]
  · have hne : (name == output.name) = false := by simpa using Ne.symm hname
    simp only [hne, hname, if_false]
    cases hi : w.registry.outputs.lookup name with
    | none => rfl
    | some i => simp [List.getElem?_append_left (h name i hi)]

theorem outputFields_declareOutputs {w : Workspace} (h : w.OutputsInRange)
    (hnone : ∀ name, w.outputFields name = []) (outputs : List Logical.Output) :
    (w.declareOutputs outputs).OutputsInRange ∧
      ∀ name, (w.declareOutputs outputs).outputFields name =
        ((outputs.findRev? (·.name == name)).map (·.fields)).getD [] := by
  -- From the back, since the last declaration of a name is the one that counts.
  induction outputs using List.reverseRecOn with
  | nil => exact ⟨h, hnone⟩
  | append_singleton outputs output ih =>
      obtain ⟨hrange, hfields⟩ := ih
      have hlast : w.declareOutputs (outputs ++ [output]) =
          (w.declareOutputs outputs).declareOutput output := by
        simp [declareOutputs]
      rw [hlast]
      refine ⟨outputsInRange_declareOutput hrange output, fun name => ?_⟩
      rw [outputFields_declareOutput hrange, findRev?_concat, hfields]
      split <;> rfl

theorem outputFields_ofProgram (target : Target) (input : Logical.Program) :
    (ofProgram target input).outputFields = input.outputFields := by
  have hmaps : ∀ (maps : List MapDecl) (w : Workspace), w.registry.outputs = [] →
      (w.declareMaps maps).registry.outputs = [] := by
    intro maps
    induction maps with
    | nil => exact fun _ h => h
    | cons map rest ih => exact fun w h => ih (w.declareMap map) h
  have hnone := hmaps input.maps { program := { target, language := input.language } } rfl
  funext name
  refine (outputFields_declareOutputs ?_ ?_ input.outputs).2 name
  · intro name i hi
    simp [hnone] at hi
  · intro name
    simp [outputFields_eq, hnone]

end Workspace

def writesOf (probes : List Logical.Probe) (lowered : List Physical.Probe) :
    List (Physical.Probe × RecordAction) :=
  (probes.zip lowered).flatMap fun (probe, writer) =>
    probe.recordActions.map fun action => (writer, action)

theorem writesOf_append {probes more : List Logical.Probe}
    {lowered moreLowered : List Physical.Probe} (h : probes.length = lowered.length) :
    writesOf (probes ++ more) (lowered ++ moreLowered) =
      writesOf probes lowered ++ writesOf more moreLowered := by
  simp [writesOf, List.zip_append h]

@[simp] theorem writesOf_cons (probe : Logical.Probe) (writer : Physical.Probe)
    (probes : List Logical.Probe) (lowered : List Physical.Probe) :
    writesOf (probe :: probes) (writer :: lowered) =
      (probe.recordActions.map fun action => (writer, action)) ++ writesOf probes lowered := by
  simp [writesOf]

@[simp] theorem writesOf_nil (lowered : List Physical.Probe) : writesOf [] lowered = [] := rfl

theorem findRev?_filterMap {α β : Type} {f : α → Option β} {p : α → Bool}
    {q : β → Bool} {xs : List α}
    (h : ∀ a ∈ xs, ∃ b, f a = some b ∧ q b = p a) :
    (xs.filterMap f).findRev? q = (xs.findRev? p).bind f := by
  induction xs using List.reverseRecOn with
  | nil => rfl
  | append_singleton xs a ih =>
      obtain ⟨b, hb, hqp⟩ := h a (by simp)
      have hxs := ih fun a ha => h a (by simp [ha])
      simp only [List.findRev?_eq_find?_reverse] at hxs ⊢
      cases hp : p a <;> simp [hb, hqp, hp, hxs]

def writtenLayout? (language : Language) (outputFields : String → List String)
    (write : Physical.Probe × RecordAction) : Option Struct :=
  write.1.layout? (write.2.record language outputFields)

namespace Workspace

/-- The layouts of the program are those of the writes of the probes `done`. -/
structure Written (language : Language) (outputFields : String → List String)
    (done : List Logical.Probe) (w : Workspace) : Prop where
  recorded : w.Recorded
  fields_eq : w.outputFields = outputFields
  length_eq : done.length = w.program.probes.length
  layouts : w.program.layouts = (writesOf done w.program.probes).filterMap
    (writtenLayout? language outputFields)
  closed : ∀ write ∈ writesOf done w.program.probes,
    ∃ s, writtenLayout? language outputFields write = some s

namespace Written

variable {facts : Facts} {language : Language} {outputFields : String → List String}
  {done probes : List Logical.Probe} {input : Logical.Probe} {w v u : Workspace}
  {probe : Physical.Probe}

theorem lowerProbe (hw : w.Written language outputFields done)
    (h : w.lowerProbe facts language input = (.ok probe, v)) :
    (v.addProbe probe).Written language outputFields (done ++ [input]) := by
  obtain ⟨hrecorded, hfields, hclosed, hrecords⟩ := hw.recorded.lowerProbe h
  have hsame : v.program.probes = w.program.probes := sameProbes_of_lowerProbe h
  have hprobes : (v.addProbe probe).program.probes = w.program.probes ++ [probe] := by
    simp [addProbe, hsame]
  have hwrites : writesOf (done ++ [input]) (w.program.probes ++ [probe]) =
      writesOf done w.program.probes ++
        input.recordActions.map fun action => (probe, action) := by
    simp [writesOf_append hw.length_eq]
  have hlayouts : probe.layouts =
      (input.recordActions.map fun action => (probe, action)).filterMap
        (writtenLayout? language outputFields) := by
    rw [Physical.Probe.layouts, hrecords, hw.fields_eq, List.filterMap_map,
      List.filterMap_map]
    rfl
  refine ⟨hrecorded, hfields.trans hw.fields_eq, ?_, ?_, ?_⟩
  · simp [hprobes, hw.length_eq]
  · have hold : w.program.probes.flatMap Physical.Probe.layouts =
        (writesOf done w.program.probes).filterMap
          (writtenLayout? language outputFields) := hw.layouts
    rw [Physical.Program.layouts, hprobes, hwrites, List.filterMap_append, ← hlayouts,
      ← hold]
    simp
  · intro write hwrite
    rw [hprobes, hwrites, List.mem_append] at hwrite
    rcases hwrite with hwrite | hwrite
    · exact hw.closed write hwrite
    · obtain ⟨action, haction, rfl⟩ := List.mem_map.mp hwrite
      refine hclosed _ ?_
      rw [hrecords, hw.fields_eq]
      exact List.mem_map_of_mem haction

theorem run (hw : w.Written language outputFields [])
    (h : (generateProbes facts language probes).runFrom w = (.ok (), u)) :
    u.Written language outputFields probes :=
  invariant_of_run (fun _ _ _ _ _ hw hprobe => hw.lowerProbe hprobe) hw h

theorem ofProgram (target : Target) (input : Logical.Program) :
    (Workspace.ofProgram target input).Written language input.outputFields [] := by
  refine ⟨recorded_ofProgram target input, outputFields_ofProgram target input, ?_, ?_, ?_⟩
  · simp
  · simp [Physical.Program.layouts, writesOf]
  · simp [writesOf]

theorem findStruct?_eq (hw : w.Written language outputFields done) (name : String) :
    w.program.findStruct? (structTypeName name) =
      ((writesOf done w.program.probes).findRev? (·.2.owner == name)).bind
        (writtenLayout? language outputFields) := by
  rw [hw.recorded.latest, hw.layouts]
  refine findRev?_filterMap fun write hwrite => ?_
  obtain ⟨s, hs⟩ := hw.closed write hwrite
  have hname : s.name = structTypeName write.2.owner := Physical.Probe.name_of_layout? hs
  refine ⟨s, hs, ?_⟩
  rw [hname, Bool.eq_iff_iff]
  simp [structTypeName_inj]

theorem exists_write (hw : w.Written language outputFields done) {name : String}
    {layout : Struct} (h : w.struct? (structTypeName name) = .ok layout) :
    ∃ writer action,
      (writesOf done w.program.probes).findRev? (·.2.owner == name) =
        some (writer, action) ∧
      writer.layout? (action.record language outputFields) = some layout := by
  rw [hw.recorded.indexed.struct?_ok_iff, hw.findStruct?_eq, Option.bind_eq_some_iff] at h
  obtain ⟨⟨writer, action⟩, hlast, hlayout⟩ := h
  exact ⟨writer, action, hlast, hlayout⟩

end Written

end Workspace

/-! ## Map reads -/

theorem members_of_layout {language : Language} {outputFields : String → List String}
    {writer : Physical.Probe} {action : RecordAction} {layout : Struct}
    (h : writer.layout? (action.record language outputFields) = some layout)
    (read : Logical.MapValue) :
    layout.fields.length = (action.columns language outputFields).length ∧
    (read.valueIds.length ≤ layout.fields.length →
      ∀ (j : Nat) (id : String), read.valueIds[j]? = some id → ∃ field source type,
        (action.columns language outputFields)[j]? = some (field, source) ∧
        writer.scalarType? source = some type ∧
        .member ⟨id, type, Build.mapHandleName read.mapName, true, field⟩ ∈
          Build.readVariables read layout) := by
  have hfields := Physical.Probe.fields_of_layout? h
  have hlength := Physical.Probe.length_of_fields? hfields
  simp only [RecordAction.record, List.length_map] at hlength
  refine ⟨hlength, fun hids j id hid => ?_⟩
  obtain ⟨hj, -⟩ := List.getElem?_eq_some_iff.mp hid
  have hfield : layout.fields[j]? = some layout.fields[j] :=
    List.getElem?_eq_getElem (by omega)
  obtain ⟨source, hcolumn, htype⟩ := Physical.Probe.getElem?_of_fields? hfields hfield
  simp only [RecordAction.record, List.getElem?_map, Option.map_eq_some_iff] at hcolumn
  obtain ⟨⟨field, source'⟩, hcolumn, hassigned⟩ := hcolumn
  cases hassigned
  refine ⟨_, _, _, hcolumn, htype, List.mem_cons_of_mem _ (List.mem_map.mpr ?_)⟩
  refine ⟨(id, layout.fields[j]), ?_, rfl⟩
  have hzip : (read.valueIds.zip layout.fields)[j]? = some (id, layout.fields[j]) := by
    simp [List.getElem?_zip_eq_some, hid, hfield]
  exact List.mem_of_getElem? hzip

section Writers

variable {probes : List Logical.Probe} {lowered : List Physical.Probe}
  {writer : Physical.Probe} {action : RecordAction}

theorem zip_of_writesOf (h : (writer, action) ∈ writesOf probes lowered) :
    ∃ probe, (probe, writer) ∈ probes.zip lowered ∧ action ∈ probe.recordActions := by
  obtain ⟨⟨probe, target⟩, hmem, haction⟩ := List.mem_flatMap.mp h
  obtain ⟨action', haction', heq⟩ := List.mem_map.mp haction
  cases heq
  exact ⟨probe, hmem, haction'⟩

theorem owner_of_writesOf (h : (writer, action) ∈ writesOf probes lowered) :
    ∃ probe ∈ probes, action ∈ probe.recordActions := by
  obtain ⟨probe, hzip, haction⟩ := zip_of_writesOf h
  exact ⟨probe, (List.of_mem_zip hzip).1, haction⟩

end Writers

/--
A map read sees the last action in earlier probes that wrote a record under the
name of the map.  It names at most as many fields as the action wrote, and each of
its members has the field and the type that were written at its position.  The
action is a stash unless an earlier probe sends events to an output of this name.
-/
theorem map_reads_last_write {facts : Facts} {deployment : Logical.Deployment}
    {program : Physical.Program} (h : lowerDeployment facts deployment = .ok program)
    {input : Logical.Program} (hinput : deployment.tracepoints = [input])
    {before after : List Logical.Probe} {probe : Logical.Probe}
    (hprobes : input.probes = before ++ probe :: after)
    {read : Logical.MapValue} (hread : read ∈ probe.mapVals) :
    ∃ lowered writer action, program.probes[before.length]? = some lowered ∧
      (writesOf before program.probes).findRev? (·.2.owner == read.mapName) =
        some (writer, action) ∧
      read.valueIds.length ≤
        (action.columns input.language input.outputFields).length ∧
      (∀ (j : Nat) (id : String), read.valueIds[j]? = some id → ∃ field source type,
        (action.columns input.language input.outputFields)[j]? = some (field, source) ∧
        writer.scalarType? source = some type ∧
        .member ⟨id, type, Build.mapHandleName read.mapName, true, field⟩ ∈
          lowered.vars) ∧
      ((∀ earlier ∈ before, ∀ event ∈ earlier.outputs,
          event.outputName ≠ read.mapName) →
        ∃ stash, action = .stash stash) := by
  obtain ⟨input', u, hinput', hrun, rfl⟩ := lowerDeployment_ok.mp h
  cases hinput.symm.trans hinput'
  rw [hprobes] at hrun
  obtain ⟨w, lowered, v, later, hbefore, hlowered, -, hprogram⟩ :=
    Workspace.exists_lowered_at hrun
  have hw := (Workspace.Written.ofProgram deployment.target input).run hbefore
  obtain ⟨hreads, -⟩ := Workspace.reads_of_lowerProbe hlowered
  obtain ⟨layout, hlayout, hids, hsubset⟩ := hreads read hread
  obtain ⟨writer, action, hlast, hwritten⟩ := hw.exists_write hlayout
  obtain ⟨hlength, hmembers⟩ := members_of_layout hwritten read
  -- The program has more probes than were lowered before the read, but `before`
  -- pairs with the first of them only.
  have hwrites : writesOf before u.program.probes =
      writesOf before w.program.probes := by
    have hzip : (before ++ []).zip (w.program.probes ++ lowered :: later) =
        before.zip w.program.probes := by
      rw [List.zip_append hw.length_eq, List.zip_nil_left, List.append_nil]
    rw [List.append_nil] at hzip
    rw [writesOf, hprogram, hzip, writesOf]
  refine ⟨lowered, writer, action, ?_, by rw [hwrites, hlast], by omega, ?_, ?_⟩
  · simp [hprogram, hw.length_eq]
  · intro j id hid
    obtain ⟨field, source, type, hcolumn, htype, hmember⟩ := hmembers hids j id hid
    exact ⟨field, source, type, hcolumn, htype, hsubset hmember⟩
  · intro hnone
    obtain ⟨earlier, hearlier, haction⟩ := owner_of_writesOf (mem_of_findRev? hlast)
    have howner := key_of_findRev? hlast
    cases action with
    | stash stash => exact ⟨stash, rfl⟩
    | output event =>
        have hevent : event ∈ earlier.outputs := by
          simpa [Logical.Probe.recordActions] using haction
        exact absurd howner (hnone earlier hearlier event hevent)

theorem map_reads_last_write_callReturn :
    ∃ lowered writer action, callProgram.probes[1]? = some lowered ∧
      (writesOf [callEntry] callProgram.probes).findRev? (·.2.owner == "calls") =
        some (writer, action) ∧
      (∃ stash, action = .stash stash) ∧
      ∃ field source type,
        (action.columns .go callInput.outputFields)[1]? = some (field, source) ∧
        writer.scalarType? source = some type ∧
        .member ⟨"entry_id", type, Build.mapHandleName "calls", true, field⟩ ∈
          lowered.vars := by
  have hinput : callTracing.tracepoints = [callInput] := rfl
  have hprobes : callInput.probes = [callEntry] ++ callReturn :: [] := rfl
  have hread : ⟨"calls", .goid, ["start_ktime_ns", "entry_id"]⟩ ∈ callReturn.mapVals := by
    simp [callReturn]
  obtain ⟨lowered, writer, action, hlowered, hlast, -, hmembers, hstash⟩ :=
    map_reads_last_write lowerDeployment_callTracing hinput hprobes hread
  exact ⟨lowered, writer, action, hlowered, hlast, hstash (by decide +kernel),
    hmembers 1 "entry_id" rfl⟩

/-- Between a stash and a read of `calls`, events are sent to an output `calls`. -/
def sharedNameInput : Logical.Program where
  language := .go
  maps := [{ name := "calls" }]
  outputs := [⟨"calls", []⟩]
  probes := [
    { name := "stash"
      tracepoint := ⟨"main.Serve", .entry⟩
      stashes := [{ mapName := "calls", key := .goid, valueVariables := ["time_"] }] },
    { name := "send"
      tracepoint := ⟨"main.Serve", .entry⟩
      outputs := [⟨"calls", []⟩] },
    { name := "read"
      tracepoint := ⟨"main.Serve", .entry⟩
      mapVals := [⟨"calls", .goid, ["start"]⟩] }]

def sharedNameProgram : Physical.Program :=
  (lowerDeployment callFacts ⟨⟨"/usr/bin/server"⟩, [sharedNameInput]⟩).toOption.getD {}

theorem exists_read_of_event :
    lowerDeployment callFacts ⟨⟨"/usr/bin/server"⟩, [sharedNameInput]⟩ =
        .ok sharedNameProgram ∧
      ((sharedNameInput.probes.take 2).flatMap (·.stashes)).findRev?
          (·.mapName == "calls") =
        some { mapName := "calls", key := .goid, valueVariables := ["time_"] } ∧
      ∃ lowered, sharedNameProgram.probes[2]? = some lowered ∧
        lowered.findVar? "start" =
          some (.member ⟨"start", .int32, "calls_ptr", true, "tgid_"⟩) := by
  refine ⟨eq_ok_of_isSome _ (by decide +kernel), by decide, ?_⟩
  exact Option.bind_eq_some_iff.mp (by decide +kernel)

end ProbeLowering
