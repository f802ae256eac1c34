import ProbeLowering.Proofs.Session

/-!
# Registrations of records

Requests register records one after the other (`registrations`), those of a probe
that fails half way included.  The program keeps one record of each name, in the
order in which the names were registered first and with the content that was
registered last, and the registry finds the maps, outputs and records of the
program at any time (`registry_refines_program`).
-/

namespace ProbeLowering

open DebugInfo
open Physical (Struct)

theorem eraseDups_concat {α : Type} [BEq α] [LawfulBEq α] [DecidableEq α] (xs : List α)
    (x : α) : (xs ++ [x]).eraseDups =
      if x ∈ xs then xs.eraseDups else xs.eraseDups ++ [x] := by
  rw [List.eraseDups_append]
  by_cases h : x ∈ xs <;> simp [List.removeAll, List.eraseDups_cons, h]

theorem nodup_eraseDups {α : Type} [BEq α] [LawfulBEq α] [DecidableEq α] (xs : List α) :
    xs.eraseDups.Nodup := by
  induction xs using List.reverseRecOn with
  | nil => simp
  | append_singleton xs x ih =>
      rw [eraseDups_concat]
      split
      next => exact ih
      next hnew =>
        rw [← List.concat_eq_append]
        exact ih.concat (by simpa using hnew)

namespace Workspace

def registerAll (records : List Struct) (w : Workspace) : Workspace :=
  records.foldl registerStruct w

theorem registerAll_concat (records : List Struct) (value : Struct) (w : Workspace) :
    registerAll (records ++ [value]) w = (registerAll records w).registerStruct value := by
  simp [registerAll]

theorem StructsIndexed.names_registerStruct {w : Workspace} (h : w.StructsIndexed)
    (value : Struct) :
    (w.registerStruct value).program.structs.map Struct.name =
      if value.name ∈ w.program.structs.map Struct.name then
        w.program.structs.map Struct.name
      else w.program.structs.map Struct.name ++ [value.name] := by
  have hmem : value.name ∈ w.program.structs.map Struct.name ↔
      (w.registry.structs.lookup value.name).isSome := by
    rw [h value.name, List.findIdx?_isSome]
    simp only [List.mem_map, List.any_eq_true, beq_iff_eq]
  rw [h.located.names_registerStruct]
  simp only [hmem]

section Records

variable {w : Workspace} (hstructs : w.program.structs = [])
  (hpositions : w.registry.structs = [])

include hstructs hpositions

theorem structsIndexed_registerAll (records : List Struct) :
    (registerAll records w).StructsIndexed := by
  refine List.foldlRecOn records _ ?_ fun w hw value _ => hw.registerStruct value
  intro name
  simp [hstructs, hpositions]

theorem names_registerAll (records : List Struct) :
    (registerAll records w).program.structs.map Struct.name =
      (records.map Struct.name).eraseDups := by
  -- From the back: what the last registration does depends on all before it.
  induction records using List.reverseRecOn with
  | nil => simp [registerAll, hstructs]
  | append_singleton records value ih =>
      have hindexed := structsIndexed_registerAll hstructs hpositions records
      rw [registerAll_concat, hindexed.names_registerStruct, ih, List.map_append,
        List.map_singleton, eraseDups_concat]
      simp only [List.mem_eraseDups]

theorem findStruct?_registerAll (records : List Struct) (name : String) :
    (registerAll records w).program.findStruct? name =
      records.findRev? fun s => s.name == name := by
  induction records using List.reverseRecOn with
  | nil => simp [registerAll, Physical.Program.findStruct?, hstructs]
  | append_singleton records value ih =>
      have hindexed := structsIndexed_registerAll hstructs hpositions records
      rw [registerAll_concat, hindexed.findStruct?_registerStruct, ih, findRev?_concat]

end Records

theorem SameStructs.registerAll {w v : Workspace} (h : w.SameStructs v)
    (records : List Struct) :
    (Workspace.registerAll records w).SameStructs (Workspace.registerAll records v) := by
  induction records generalizing w v with
  | nil => exact h
  | cons value rest ih => exact ih (h.registerStruct value)

theorem sameStructs_apply (write : RecordWrite) (w : Workspace) :
    (w.registerStruct write.record).SameStructs (write.apply w) := by
  have hset : w.SameStructs (write.setEntry w) := by
    cases write <;> exact ⟨rfl, rfl⟩
  rw [write.apply_eq]
  exact hset.registerStruct write.record

theorem sameStructs_applyAll (writes : List RecordWrite) (w : Workspace) :
    (registerAll (writes.map RecordWrite.record) w).SameStructs
      (RecordWrite.applyAll writes w) := by
  induction writes generalizing w with
  | nil => exact .refl w
  | cons write rest ih =>
      have hfirst := (sameStructs_apply write w).registerAll (rest.map RecordWrite.record)
      exact hfirst.trans (ih (write.apply w))

/-- The records that a request registers, whether it succeeds or fails. -/
def registered (facts : Facts) (language : Language) (w : Workspace) :
    Request → List Struct
  | .generateProbe input =>
      (w.probeWrites facts language input).map RecordWrite.record
  | .declareMaps _ | .declareOutputs _ => []

def registrations (facts : Facts) (language : Language) :
    List Request → Workspace → List Struct
  | [], _ => []
  | request :: rest, w =>
      w.registered facts language request ++
        registrations facts language rest (w.serve facts language request)

section Requests

variable (facts : Facts) (language : Language)

theorem sameStructs_serve (w : Workspace) (request : Request) :
    (registerAll (w.registered facts language request) w).SameStructs
      (w.serve facts language request) := by
  cases request with
  | declareMaps maps => exact (sameRecords_declareMaps w maps).sameStructs
  | declareOutputs outputs => exact (sameRecords_declareOutputs w outputs).sameStructs
  | generateProbe input =>
      have hlowered : (registerAll (w.registered facts language (.generateProbe input))
          w).SameStructs (w.lowerProbe facts language input).2 := by
        rw [workspace_of_lowerProbe]
        exact sameStructs_applyAll _ w
      rcases generateProbe_state input w with ⟨probe, hstate⟩ | hstate
      · rw [serve, hstate]
        exact hlowered.trans ⟨rfl, rfl⟩
      · rw [serve, hstate]
        exact hlowered

theorem sameStructs_serveAll (requests : List Request) (w : Workspace) :
    (registerAll (registrations facts language requests w) w).SameStructs
      (serveAll facts language requests w) := by
  induction requests generalizing w with
  | nil => exact .refl w
  | cons request rest ih =>
      have hfirst := (sameStructs_serve facts language w request).registerAll
        (registrations facts language rest (w.serve facts language request))
      have hrest := ih (w.serve facts language request)
      rw [registrations, registerAll, List.foldl_append]
      exact hfirst.trans hrest

end Requests

theorem StructsIndexed.struct?_eq {w : Workspace} (h : w.StructsIndexed) (name : String) :
    w.struct? name =
      match w.program.findStruct? name with
      | some s => .ok s
      | none => .error (.undeclaredStruct name) := by
  rw [h.findStruct?_eq, struct?]
  cases hlookup : w.registry.structs.lookup name with
  | none => rfl
  | some i =>
      obtain ⟨s, hs, -⟩ := h.located name i hlookup
      simp [hs]

/-- The registry and the program hold the records `records`, registered in this order. -/
structure Refined (w : Workspace) (records : List Struct) : Prop where
  struct_at : ∀ name i, w.registry.structs.lookup name = some i →
    ∃ h : i < w.program.structs.length, w.program.structs[i].name = name
  struct_entry : ∀ i, i < w.program.structs.length →
    ∃! name, w.registry.structs.lookup name = some i
  map_at : ∀ name i, w.registry.maps.lookup name = some i →
    ∃ h : i < w.program.maps.length, w.program.maps[i].name = name
  output_at : ∀ name i, w.registry.outputs.lookup name = some i →
    ∃ h : i < w.program.outputs.length, w.program.outputs[i].name = name
  nodup : (w.program.structs.map Struct.name).Nodup
  /-- Names stand in the order of their first registration. -/
  names_eq : w.program.structs.map Struct.name = (records.map Struct.name).eraseDups
  /-- Every record has the content of the last registration of its name. -/
  latest : ∀ s ∈ w.program.structs, records.findRev? (fun r => r.name == s.name) = some s
  lookup_eq : ∀ name, w.struct? name =
    match w.program.findStruct? name with
    | some s => .ok s
    | none => .error (.undeclaredStruct name)

theorem exists_getElem {α : Type} {xs : List α} {i : Nat} {P : α → Prop}
    (h : ∃ x, xs[i]? = some x ∧ P x) : ∃ hi : i < xs.length, P xs[i] := by
  obtain ⟨x, hx, hP⟩ := h
  obtain ⟨hi, rfl⟩ := List.getElem?_eq_some_iff.mp hx
  exact ⟨hi, hP⟩

theorem StructsIndexed.lookup_name_of_nodup {w : Workspace} (h : w.StructsIndexed)
    (hnodup : (w.program.structs.map Struct.name).Nodup) {i : Nat}
    (hi : i < w.program.structs.length) :
    w.registry.structs.lookup w.program.structs[i].name = some i := by
  rw [h, List.findIdx?_eq_some_iff_getElem]
  refine ⟨hi, by simp, ?_⟩
  intro j hj hname
  have hilt : i < (w.program.structs.map Struct.name).length := by simpa using hi
  have hjlt : j < (w.program.structs.map Struct.name).length := by omega
  have hsame : (w.program.structs.map Struct.name)[j] =
      (w.program.structs.map Struct.name)[i] := by simpa using hname
  have hij := hnodup.getElem_inj_iff.mp hsame
  omega

/--
Whatever is declared and generated, and whether generating succeeds or fails, the
registry of records mirrors the records of the program and the registries of maps and
outputs refer to entries of their names.  The records of the program are those that
were registered: each name once, where it was registered first, as it was registered
last.
-/
theorem registry_refines_program (facts : Facts) (language : Language)
    {program : Physical.Program} (hprogram : program.structs = [])
    (requests : List Request) :
    (registerAll (registrations facts language requests { program }) { program }).SameStructs
        (serveAll facts language requests { program }) ∧
      (serveAll facts language requests { program }).Refined
        (registrations facts language requests { program }) := by
  have hsame := sameStructs_serveAll facts language requests { program }
  refine ⟨hsame, ?_⟩
  generalize registrations facts language requests { program } = records at hsame ⊢
  have hlocated : (serveAll facts language requests { program }).Located :=
    Reachable.located ⟨program, requests, rfl⟩
  generalize serveAll facts language requests { program } = w at hsame hlocated ⊢
  have hindexed := hsame.structsIndexed (structsIndexed_registerAll hprogram rfl records)
  have hnames : w.program.structs.map Struct.name =
      (records.map Struct.name).eraseDups := by
    rw [hsame.structs]
    exact names_registerAll hprogram rfl records
  have hnodup : (w.program.structs.map Struct.name).Nodup := hnames ▸ nodup_eraseDups _
  have hfind : ∀ name, w.program.findStruct? name =
      records.findRev? fun s => s.name == name := by
    intro name
    rw [Physical.Program.findStruct?, hsame.structs]
    exact findStruct?_registerAll hprogram rfl records name
  refine ⟨fun name i hi => exists_getElem (hlocated.structs name i hi), ?_,
    fun name i hi => exists_getElem (hlocated.maps name i hi), ?_, hnodup, hnames, ?_,
    hindexed.struct?_eq⟩
  · intro i hi
    refine ⟨_, hindexed.lookup_name_of_nodup hnodup hi, fun name hname => ?_⟩
    obtain ⟨_, hi'⟩ := exists_getElem (hlocated.structs name i hname)
    exact hi'.symm
  · intro name i hi
    obtain ⟨hlt, hname, -⟩ := exists_getElem (hlocated.outputs name i hi)
    exact ⟨hlt, hname⟩
  · intro s hs
    obtain ⟨i, hi, rfl⟩ := List.getElem_of_mem hs
    rw [← hfind, hindexed.findStruct?_eq, hindexed.lookup_name_of_nodup hnodup hi]
    simp [hi]

theorem registry_refines_program_mixedSession :
    ({} : Physical.Program).structs = [] ∧
      (registrations callFacts .c mixedSession { program := {} }).map Struct.name =
        ["calls_value_t", "calls_value_t", "events_value_t"] ∧
      (serveAll callFacts .c mixedSession { program := {} }).program.structs.map Struct.name =
        ["calls_value_t", "events_value_t"] ∧
      (serveAll callFacts .c mixedSession { program := {} }).Refined
        (registrations callFacts .c mixedSession { program := {} }) :=
  ⟨rfl, by decide +kernel, by decide +kernel,
    (registry_refines_program callFacts .c rfl mixedSession).2⟩

end Workspace

end ProbeLowering
