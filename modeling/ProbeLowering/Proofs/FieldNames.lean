import ProbeLowering.Proofs.Registration
import ProbeLowering.Proofs.TypedDeclarations

/-!
# Names of the fields of records

A record has the field names of the action that wrote it last: the names of the stashed
values, or the implicit columns and then the declared fields of the output.  Nobody compares
these names with each other, so a record is unambiguous exactly if this action is
(`field_names_of_program`).
-/

namespace ProbeLowering

open DebugInfo
open Physical (Struct)
open Logical (RecordAction)

namespace Logical.RecordAction

def fieldNames (input : Logical.Program) : RecordAction → List String
  | stash action => action.valueVariables
  | output action => implicitColumns input.language ++ input.outputFields action.outputName

/-- The names that come from the request differ from each other and from the columns. -/
def Unambiguous (input : Logical.Program) : RecordAction → Prop
  | stash action => action.valueVariables.Nodup
  | output action =>
      (input.outputFields action.outputName).Nodup ∧
        ∀ field ∈ input.outputFields action.outputName,
          field ∉ implicitColumns input.language

theorem nodup_implicitColumns (language : Language) : (implicitColumns language).Nodup := by
  cases language <;> decide

theorem nodup_fieldNames_iff {input : Logical.Program} {action : RecordAction} :
    (action.fieldNames input).Nodup ↔ action.Unambiguous input := by
  cases action with
  | stash action => exact Iff.rfl
  | output action =>
      rw [fieldNames, List.nodup_append, and_iff_right (nodup_implicitColumns _)]
      refine and_congr_right fun _ => ?_
      constructor
      · intro hne field hfield hcolumn
        exact hne field hcolumn field hfield rfl
      · rintro hfields column hcolumn field hfield rfl
        exact hfields column hfield hcolumn

end Logical.RecordAction

theorem map_snd_writesOf {probes : List Logical.Probe} {lowered : List Physical.Probe}
    (h : probes.length = lowered.length) :
    (writesOf probes lowered).map Prod.snd = probes.flatMap (·.recordActions) := by
  have hprobes : (probes.zip lowered).map Prod.fst = probes :=
    List.map_fst_zip (Nat.le_of_eq h)
  rw [writesOf, List.map_flatMap]
  simp only [List.map_map, Function.comp_def, List.map_id']
  rw [← List.flatMap_map Prod.fst (fun probe => Logical.Probe.recordActions probe), hprobes]

namespace Workspace

theorem nodup_structs_of_run {facts : Facts} {target : Target} {input : Logical.Program}
    {u : Workspace}
    (h : (generateProbes facts input.language input.probes).runFrom (ofProgram target input) =
      (.ok (), u)) :
    (u.program.structs.map Struct.name).Nodup := by
  refine (kept_of_run (I := fun w => w.StructsIndexed ∧
    (w.program.structs.map Struct.name).Nodup) ?_ (fun _ _ hw => hw) ?_ h).2
  · rintro w action write - ⟨hindexed, hnodup⟩
    have hsame := sameStructs_apply write w
    refine ⟨hsame.structsIndexed (hindexed.registerStruct write.record), ?_⟩
    rw [hsame.structs, hindexed.names_registerStruct]
    split
    next => exact hnodup
    next hnew =>
      rw [← List.concat_eq_append]
      exact hnodup.concat hnew
  · refine ⟨(recorded_ofProgram target input).indexed, ?_⟩
    rw [(ofProgram_sameRecords target input).structs]
    exact List.nodup_nil

theorem StructsIndexed.findStruct?_of_mem {w : Workspace} (h : w.StructsIndexed)
    (hnodup : (w.program.structs.map Struct.name).Nodup) {s : Struct}
    (hs : s ∈ w.program.structs) : w.program.findStruct? s.name = some s := by
  obtain ⟨i, hi, rfl⟩ := List.getElem_of_mem hs
  rw [h.findStruct?_eq, h.lookup_name_of_nodup hnodup hi, Option.bind_some,
    List.getElem?_eq_getElem hi]

namespace Written

variable {language : Language} {outputFields : String → List String}
  {done : List Logical.Probe} {w : Workspace}

/-- A record of the program has the layout of the last action that wrote under its name. -/
theorem exists_last_write (h : w.Written language outputFields done)
    (hnodup : (w.program.structs.map Struct.name).Nodup) {s : Struct}
    (hs : s ∈ w.program.structs) :
    ∃ writer action, s.name = structTypeName action.owner ∧
      (writesOf done w.program.probes).findRev? (·.2.owner == action.owner) =
        some (writer, action) ∧
      writtenLayout? language outputFields (writer, action) = some s := by
  have hfound := h.recorded.indexed.findStruct?_of_mem hnodup hs
  have hlayout := hfound
  rw [h.recorded.latest] at hlayout
  have hmem : s ∈ w.program.layouts := mem_of_findRev? hlayout
  rw [h.layouts] at hmem
  obtain ⟨write, -, hwritten⟩ := List.mem_filterMap.mp hmem
  have hname : s.name = structTypeName write.2.owner := Physical.Probe.name_of_layout? hwritten
  rw [hname, h.findStruct?_eq] at hfound
  obtain ⟨⟨writer, action⟩, hlast, hlayout⟩ := Option.bind_eq_some_iff.mp hfound
  have howner := key_of_findRev? hlast
  replace howner : action.owner = write.2.owner := howner
  exact ⟨writer, action, howner ▸ hname, howner ▸ hlast, hlayout⟩

end Written

end Workspace

theorem names_of_writtenLayout? {input : Logical.Program} {writer : Physical.Probe}
    {action : RecordAction} {s : Struct}
    (hsends : ∀ event, action = .output event → input.Sends event)
    (h : writtenLayout? input.language input.outputFields (writer, action) = some s) :
    s.fields.map (·.name) = action.fieldNames input := by
  cases action with
  | output event => exact (hsends event rfl).names_of_layout? h
  | stash action =>
      rw [Physical.Probe.names_of_fields? (Physical.Probe.fields_of_layout? h)]
      simp [RecordAction.record, RecordAction.columns, RecordAction.fieldNames,
        Function.comp_def]

/--
Every record of a program has the field names of the last action that wrote under its name,
so they differ from each other exactly if those of the action do.
-/
theorem field_names_of_program {facts : Facts} {deployment : Logical.Deployment}
    {program : Physical.Program} (h : lowerDeployment facts deployment = .ok program) :
    ∃ input, deployment.tracepoints = [input] ∧ ∀ s ∈ program.structs, ∃ action,
      s.name = structTypeName action.owner ∧
      (input.probes.flatMap (·.recordActions)).findRev? (·.owner == action.owner) =
        some action ∧
      s.fields.map (·.name) = action.fieldNames input ∧
      ((s.fields.map (·.name)).Nodup ↔ action.Unambiguous input) := by
  obtain ⟨input, u, hinput, hrun, rfl⟩ := lowerDeployment_ok.mp h
  have hwritten : u.Written input.language input.outputFields input.probes :=
    (Workspace.Written.ofProgram deployment.target input).run hrun
  obtain ⟨-, hprobes⟩ := Workspace.sends_of_run hrun
  refine ⟨input, hinput, fun s hs => ?_⟩
  obtain ⟨writer, action, hname, hlast, hlayout⟩ :=
    hwritten.exists_last_write (Workspace.nodup_structs_of_run hrun) hs
  have hsends : ∀ event, action = .output event → input.Sends event := by
    rintro event rfl
    obtain ⟨sender, hsender, haction⟩ := owner_of_writesOf (mem_of_findRev? hlast)
    obtain ⟨_, -, -, hevents⟩ := exists_related_right hprobes hsender
    exact hevents event (by simpa [Logical.Probe.recordActions] using haction)
  have hnames := names_of_writtenLayout? hsends hlayout
  refine ⟨action, hname, ?_, hnames, ?_⟩
  · rw [← map_snd_writesOf hwritten.length_eq, findRev?_map, hlast, Option.map_some]
  · rw [hnames, RecordAction.nodup_fieldNames_iff]

theorem field_names_of_callProgram :
    lowerDeployment callFacts callTracing = .ok callProgram ∧
      callProgram.structs.map (·.name) = ["calls_value_t", "events_value_t"] ∧
      ∀ s ∈ callProgram.structs, ∃ action : RecordAction,
        s.name = structTypeName action.owner ∧
        ((s.fields.map (·.name)).Nodup ↔ action.Unambiguous callInput) := by
  obtain ⟨input, hinput, hstructs⟩ := field_names_of_program lowerDeployment_callTracing
  cases hinput
  refine ⟨lowerDeployment_callTracing, by decide +kernel, fun s hs => ?_⟩
  obtain ⟨action, hname, -, -, hiff⟩ := hstructs s hs
  exact ⟨action, hname, hiff⟩

def ambiguousInput : Logical.Program where
  language := .go
  maps := [{ name := "calls" }]
  outputs := [⟨"events", ["time_"]⟩]
  probes := [
    { name := "ambiguous"
      tracepoint := ⟨"main.Serve", .entry⟩
      stashes := [{ mapName := "calls", key := .goid, valueVariables := ["time_", "time_"] }]
      outputs := [⟨"events", ["goid_"]⟩] }]

def ambiguousProgram : Physical.Program :=
  (lowerDeployment callFacts ⟨⟨"/usr/bin/server"⟩, [ambiguousInput]⟩).toOption.getD {}

theorem exists_ambiguous_fields :
    lowerDeployment callFacts ⟨⟨"/usr/bin/server"⟩, [ambiguousInput]⟩ = .ok ambiguousProgram ∧
      ambiguousProgram.structs.map (fun s => (s.name, s.fields.map (·.name))) =
        [("calls_value_t", ["time_", "time_"]),
          ("events_value_t", ["tgid_", "tgid_start_time_", "time_", "goid_", "time_"])] ∧
      ∀ s ∈ ambiguousProgram.structs, ¬ (s.fields.map (·.name)).Nodup :=
  ⟨eq_ok_of_isSome _ (by decide +kernel), by decide +kernel, by decide +kernel⟩

end ProbeLowering
