import ProbeLowering.Proofs.LatestDeclaration

/-!
# Types of declared maps and outputs

A stash types its map, and an output action registers a record that ends with the fields
of its output.  Whoever reads the program finds the declarations by their names: of a name
that is declared once the typed map and the output of the record, of other names the
first declaration, whereas actions refer to the last one.  Maps and outputs of one name
share a record, and the later action decides about it (`declarations_typed`).
-/

namespace ProbeLowering

open DebugInfo
open Logical (RecordAction)

theorem Physical.Probe.names_of_fields? {probe : Physical.Probe}
    {assignments : List Physical.FieldAssignment} {fields : List Physical.StructField}
    (h : probe.fields? assignments = some fields) :
    fields.map (·.name) = assignments.map (·.fieldName) := by
  induction assignments generalizing fields with
  | nil =>
      cases h
      rfl
  | cons assignment rest ih =>
      obtain ⟨type, tail, -, htail, rfl⟩ := fields?_cons_eq_some.mp h
      simp [ih htail]

/-- The event is sent to a declared output and has a variable for each of its fields. -/
def Logical.Program.Sends (input : Logical.Program) (event : Logical.OutputAction) : Prop :=
  ∃ output, input.outputs.findRev? (·.name == event.outputName) = some output ∧
    event.valueVariables.length = output.fields.length

namespace Logical.Program.Sends

variable {input : Logical.Program} {event : Logical.OutputAction} (h : input.Sends event)

include h

theorem exists_output :
    ∃ output : Logical.Output, input.outputs.findRev? (·.name == event.outputName) =
        some output ∧
      input.outputFields event.outputName = output.fields ∧
      event.valueVariables.length = output.fields.length := by
  obtain ⟨output, houtput, hlength⟩ := h
  refine ⟨output, houtput, ?_, hlength⟩
  rw [outputFields, houtput]
  rfl

theorem names_of_layout? {writer : Physical.Probe} {s : Physical.Struct}
    (hs : writer.layout? ((RecordAction.output event).record input.language
      input.outputFields) = some s) :
    s.fields.map (·.name) =
      implicitColumns input.language ++ input.outputFields event.outputName := by
  obtain ⟨output, -, hfields, hlength⟩ := h.exists_output
  rw [Physical.Probe.names_of_fields? (Physical.Probe.fields_of_layout? hs),
    RecordAction.record, RecordAction.columns, hfields]
  simp [Function.comp_def, List.map_fst_zip, hlength]

end Logical.Program.Sends

namespace Workspace

structure Declares (input : Logical.Program) (w : Workspace) : Prop where
  located : w.Located
  language : w.program.language = input.language
  outputs : w.program.outputs = input.outputs.map (·.buffer)
  outputFields : w.outputFields = input.outputFields

variable {facts : Facts} {input : Logical.Program} {w u : Workspace}

theorem declares_ofProgram (target : Target) (input : Logical.Program) :
    (ofProgram target input).Declares input :=
  ⟨located_ofProgram target input, by rw [program_ofProgram], by rw [program_ofProgram],
    outputFields_ofProgram target input⟩

theorem Declares.apply (h : w.Declares input) {action : RecordAction} {write : RecordWrite}
    (hfits : write.Fits w action) : (write.apply w).Declares input := by
  have hsame := h.located.sameDeclarations_apply hfits
  exact ⟨h.located.apply hfits, hsame.language.trans h.language,
    hsame.outputs.trans h.outputs, hsame.outputFields_eq.trans h.outputFields⟩

theorem Declares.addProbe (h : w.Declares input) (probe : Physical.Probe) :
    (w.addProbe probe).Declares input :=
  ⟨h.located.addProbe probe, h.language, h.outputs, h.outputFields⟩

theorem ensures_output (language : Language) (event : Logical.OutputAction) :
    Step.Ensures (fun b => b.workspace.Declares input) (Build.output language event)
      fun _ _ => input.Sends event := by
  intro b _ c hb hrun
  obtain ⟨index, buffer, record, hrecord, -, -⟩ := Build.output_ok hrun
  obtain ⟨hentry, hschema⟩ := Build.outputRecord_ok hrecord
  unfold outputStruct at hschema
  split at hschema
  next => contradiction
  next hlength =>
    obtain ⟨hposition, hbuffer⟩ := output?_ok.mp hentry
    obtain ⟨hname, -⟩ := hb.located.outputs.belongs hposition hbuffer
    have hmem : buffer ∈ b.workspace.program.outputs := List.mem_of_getElem? hbuffer
    rw [hb.outputs] at hmem
    obtain ⟨declared, hdeclared, rfl⟩ := List.mem_map.mp hmem
    obtain ⟨output, -, -, houtput⟩ := exists_findRev?_append [] Logical.Output.name
      hdeclared hname
    -- The declaration that the registry refers to has the fields of the last one.
    have hfields : b.workspace.outputFields event.outputName = declared.buffer.fields := by
      simp [Workspace.outputFields, hentry]
    rw [List.nil_append] at houtput
    rw [hb.outputFields, Logical.Program.outputFields, houtput] at hfields
    replace hfields : output.fields = declared.buffer.fields := hfields
    exact ⟨output, houtput, by rw [hfields]; exact not_not.mp hlength⟩

theorem sends_of_run {target : Target}
    (h : (generateProbes facts input.language input.probes).runFrom
      (ofProgram target input) = (.ok (), u)) :
    u.Declares input ∧ List.Forall₂ (fun logical probe =>
      probe.Mirrors input.language input.outputFields logical ∧
        ∀ event ∈ logical.outputs, input.Sends event) input.probes u.program.probes := by
  have hkeeps : ∀ w action (write : RecordWrite), write.Fits w action → w.Declares input →
      (write.apply w).Declares input := fun _ _ _ hfits hw => hw.apply hfits
  have hstart := declares_ofProgram target input
  refine ⟨kept_of_run hkeeps (fun _ probe hw => hw.addProbe probe) hstart h, ?_⟩
  refine forall₂_of_run (fun logical w v probe hw hlowered => ?_) hstart (by simp) h
  have hv : (w.lowerProbe facts input.language logical).2.Declares input :=
    kept_of_lowerProbe hkeeps hw logical
  have hmirrors := mirrors_of_lowerProbe hlowered
  rw [hlowered] at hv
  rw [hw.outputFields] at hmirrors
  refine ⟨hv.addProbe probe, hmirrors, fun event hevent => ?_⟩
  have haction : RecordAction.output event ∈ logical.recordActions := by
    simp [Logical.Probe.recordActions, hevent]
  exact established_of_lowerProbe (J := fun _ => input.Sends event) hkeeps
    (fun _ _ _ _ hw => hw) haction (ensures_output input.language event) hw hlowered

end Workspace

/-! ## Programs -/

/-- Maps and records of a program are what the actions of its probes make of them. -/
structure Physical.Program.TypedByActions (program : Physical.Program) : Prop where
  maps : ∀ probe ∈ program.probes, ∀ action ∈ probe.stashes,
    program.maps.findRev? (·.name == action.mapName) = some (.stashed action.mapName) ∧
      ((program.maps.map (·.name)).count action.mapName = 1 →
        program.findMap? action.mapName = some (.stashed action.mapName))
  /-- No later probe stashes to a map of the same name, which would replace the record. -/
  events : ∀ before probe after, program.probes = before ++ probe :: after →
    ∀ action ∈ probe.outputs,
      (∀ later ∈ after, ∀ stash ∈ later.stashes, stash.mapName ≠ action.bufferName) →
      ∃ buffer s, program.outputs.findRev? (·.name == action.bufferName) = some buffer ∧
        program.findStruct? (structTypeName action.bufferName) = some s ∧
        s.fields.map (·.name) = implicitColumns program.language ++ buffer.fields ∧
        ((program.outputs.map (·.name)).count action.bufferName = 1 →
          program.findOutput? action.bufferName = some buffer)

theorem exists_last_event {earlier later : List Logical.Probe} {logical : Logical.Probe}
    {before after : List Physical.Probe} {probe : Physical.Probe}
    (hlength : earlier.length = before.length) {language : Language}
    {outputFields : String → List String}
    (hlater : List.Forall₂ (fun logical probe => probe.Mirrors language outputFields logical)
      later after)
    {event : Logical.OutputAction} (hevent : event ∈ logical.outputs)
    (hstash : ∀ probe ∈ after, ∀ stash ∈ probe.stashes, stash.mapName ≠ event.outputName) :
    ∃ writer last, (writesOf (earlier ++ logical :: later) (before ++ probe :: after)).findRev?
      (·.2.owner == event.outputName) = some (writer, .output last) := by
  -- The outputs of the probe and what follows them are the last of all writes.
  have hsplit : writesOf (earlier ++ logical :: later) (before ++ probe :: after) =
      (writesOf earlier before ++
        logical.stashes.map fun action => (probe, .stash action)) ++
        ((logical.outputs.map fun action => (probe, .output action)) ++
          writesOf later after) := by
    simp [writesOf_append hlength, Logical.Probe.recordActions, Function.comp_def]
  have hmem : (probe, RecordAction.output event) ∈
      (logical.outputs.map fun action => (probe, RecordAction.output action)) ++
        writesOf later after := by
    simp [hevent]
  obtain ⟨⟨writer, action⟩, hlast, howner, hfound⟩ := exists_findRev?_append
    (writesOf earlier before ++ logical.stashes.map fun action => (probe, .stash action))
    (·.2.owner) hmem rfl
  rw [← hsplit] at hfound
  cases action with
  | output last => exact ⟨writer, last, hfound⟩
  | stash stash =>
      have hwrite : (writer, RecordAction.stash stash) ∈ writesOf later after := by
        simpa using hlast
      obtain ⟨sender, hpair, haction⟩ := zip_of_writesOf hwrite
      have hmirrors := (List.forall₂_iff_zip.mp hlater).2 hpair
      have hlowered : stash.lowered ∈ writer.stashes := by
        rw [hmirrors.stashes]
        refine List.mem_map_of_mem ?_
        simpa [Logical.Probe.recordActions] using haction
      exact absurd howner (hstash writer (List.of_mem_zip hpair).2 _ hlowered)

theorem Workspace.Written.fields_of_event {input : Logical.Program} {u : Workspace}
    (h : u.Written input.language input.outputFields input.probes)
    (hsends : ∀ probe ∈ input.probes, ∀ event ∈ probe.outputs, input.Sends event)
    {name : String} {writer : Physical.Probe} {last : Logical.OutputAction}
    (hlast : (writesOf input.probes u.program.probes).findRev? (·.2.owner == name) =
      some (writer, .output last)) :
    ∃ s, u.program.findStruct? (structTypeName name) = some s ∧
      s.fields.map (·.name) = implicitColumns input.language ++ input.outputFields name := by
  have hwrite := mem_of_findRev? hlast
  have hname := key_of_findRev? hlast
  obtain ⟨s, hs⟩ := h.closed _ hwrite
  obtain ⟨sender, hsender, haction⟩ := owner_of_writesOf hwrite
  have hevent : last ∈ sender.outputs := by
    simpa [Logical.Probe.recordActions] using haction
  refine ⟨s, ?_, ?_⟩
  · rw [h.findStruct?_eq, hlast, Option.bind_some, hs]
  · rw [← hname]
    exact (hsends sender hsender last hevent).names_of_layout? hs

/--
The last map of a name that is stashed to has the types of a stash, and the record of an
output that events are sent to has the implicit columns and then the fields of the last
output of its name, unless a later probe stashes to a map of this name.
-/
theorem declarations_typed {facts : Facts} {deployment : Logical.Deployment}
    {program : Physical.Program} (h : lowerDeployment facts deployment = .ok program) :
    program.TypedByActions := by
  obtain ⟨input, u, -, hrun, rfl⟩ := lowerDeployment_ok.mp h
  obtain ⟨hdeclares, hprobes⟩ := Workspace.sends_of_run hrun
  have hwritten : u.Written input.language input.outputFields input.probes :=
    (Workspace.Written.ofProgram deployment.target input).run hrun
  have hsends : ∀ probe ∈ input.probes, ∀ event ∈ probe.outputs, input.Sends event := by
    intro probe hprobe
    obtain ⟨_, -, -, hevents⟩ := exists_related_right hprobes hprobe
    exact hevents
  refine ⟨fun probe hprobe action haction => ?_,
    fun before probe after hsplit action haction hstash => ?_⟩
  · have hlast := Workspace.findRev?_of_stash hrun hprobe haction
    exact ⟨hlast, fun hcount => (find?_eq_findRev?_of_count hcount).trans hlast⟩
  · obtain ⟨earlier, logical, later, hinput, hearlier, ⟨hmirrors, hevents⟩, hlater⟩ :=
      exists_related_split (hsplit ▸ hprobes)
    rw [hmirrors.outputs] at haction
    obtain ⟨event, hevent, rfl⟩ := List.mem_map.mp haction
    obtain ⟨writer, last, hlast⟩ := exists_last_event hearlier.length_eq
      (hlater.imp fun _ _ h => h.1) hevent hstash
    rw [← hinput, ← hsplit] at hlast
    obtain ⟨s, hstruct, hnames⟩ := hwritten.fields_of_event hsends hlast
    obtain ⟨output, houtput, hfields, -⟩ := (hevents event hevent).exists_output
    have hbuffer : u.program.outputs.findRev? (·.name == event.outputName) =
        some output.buffer := by
      rw [hdeclares.outputs, findRev?_map]
      exact congrArg (Option.map _) houtput
    refine ⟨output.buffer, s, hbuffer, hstruct, ?_, fun hcount => ?_⟩
    · rw [hnames, hfields, hdeclares.language]
      rfl
    · exact (find?_eq_findRev?_of_count hcount).trans hbuffer

theorem declarations_typed_callProgram :
    callProgram.findMap? "calls" = some (.stashed "calls") ∧
      ∃ buffer s, callProgram.findOutput? "events" = some buffer ∧
        callProgram.findStruct? "events_value_t" = some s ∧
        s.fields.map (·.name) = implicitColumns .go ++ buffer.fields := by
  have htyped := declarations_typed lowerDeployment_callTracing
  have hlanguage : callProgram.language = .go := by decide +kernel
  obtain ⟨first, second, hprobes⟩ := List.length_eq_two.mp
    (show callProgram.probes.length = 2 by decide +kernel)
  have hstash : ∀ probe ∈ callProgram.probes[0]?, ⟨"calls", "goid_", "calls_value", {}⟩ ∈
      probe.stashes := by decide +kernel
  have houtput : ∀ probe ∈ callProgram.probes[1]?, ⟨"events", "events_value"⟩ ∈
      probe.outputs := by decide +kernel
  obtain ⟨-, hmap⟩ := htyped.maps first (by simp [hprobes]) _ (hstash first (by simp [hprobes]))
  obtain ⟨buffer, s, -, hs, hnames, hbuffer⟩ := htyped.events [first] second []
    (by simp [hprobes]) _ (houtput second (by simp [hprobes])) (by simp)
  rw [hlanguage] at hnames
  exact ⟨hmap (by decide +kernel), buffer, s, hbuffer (by decide +kernel), hs, hnames⟩

def repeatedInput : Logical.Program where
  language := .go
  maps := [{ name := "calls" }, { name := "calls" }]
  outputs := [⟨"events", ["first"]⟩, ⟨"events", ["last"]⟩]
  probes := [
    { name := "repeated"
      tracepoint := ⟨"main.Serve", .entry⟩
      stashes := [{ mapName := "calls", key := .goid, valueVariables := ["time_"] }]
      outputs := [⟨"events", ["time_"]⟩] }]

def repeatedProgram : Physical.Program :=
  (lowerDeployment callFacts ⟨⟨"/usr/bin/server"⟩, [repeatedInput]⟩).toOption.getD {}

def contestedInput : Logical.Program where
  language := .go
  maps := [{ name := "calls" }]
  outputs := [⟨"calls", ["time"]⟩]
  probes := [
    { name := "send"
      tracepoint := ⟨"main.Serve", .entry⟩
      outputs := [⟨"calls", ["time_"]⟩] },
    { name := "store"
      tracepoint := ⟨"main.Serve", .entry⟩
      stashes := [{ mapName := "calls", key := .goid, valueVariables := ["tgid_"] }] }]

def contestedProgram : Physical.Program :=
  (lowerDeployment callFacts ⟨⟨"/usr/bin/server"⟩, [contestedInput]⟩).toOption.getD {}

theorem exists_declaration_not_typed :
    (lowerDeployment callFacts ⟨⟨"/usr/bin/server"⟩, [repeatedInput]⟩ =
        .ok repeatedProgram ∧
      ∃ probe ∈ repeatedProgram.probes,
        (∃ action ∈ probe.stashes,
          repeatedProgram.findMap? action.mapName = some { name := "calls" }) ∧
        ∃ action ∈ probe.outputs,
          (repeatedProgram.findOutput? action.bufferName).map (·.fields) = some ["first"] ∧
          (repeatedProgram.findStruct? (structTypeName action.bufferName)).map
              (·.fields.map (·.name)) =
            some ["tgid_", "tgid_start_time_", "time_", "goid_", "last"]) ∧
      lowerDeployment callFacts ⟨⟨"/usr/bin/server"⟩, [contestedInput]⟩ =
          .ok contestedProgram ∧
        ∃ probe ∈ contestedProgram.probes, ∃ action ∈ probe.outputs,
          (contestedProgram.findOutput? action.bufferName).map (·.fields) = some ["time"] ∧
          (contestedProgram.findStruct? (structTypeName action.bufferName)).map
            (·.fields.map (·.name)) = some ["tgid_"] :=
  ⟨⟨eq_ok_of_isSome _ (by decide +kernel), by decide +kernel⟩,
    eq_ok_of_isSome _ (by decide +kernel), by decide +kernel⟩

end ProbeLowering
