import ProbeLowering.Proofs.Positions
import ProbeLowering.Proofs.Run

/-!
# The registry of records

The registry of a workspace says at which position of the program the record of
a name stands.  In every workspace that lowering reaches these positions are
those of a search through the program (`StructsIndexed`), so that a record that
is registered is from then on the record of its name
(`findStruct?_registerStruct`).
-/

namespace ProbeLowering

open DebugInfo
open Physical (Struct PerfBuffer)

namespace Workspace

variable {w : Workspace} {name : String} {value : Struct}

def StructsIndexed (w : Workspace) : Prop :=
  ∀ name, w.registry.structs.lookup name =
    w.program.structs.findIdx? fun s => s.name == name

namespace StructsIndexed

theorem findStruct?_eq (h : w.StructsIndexed) (name : String) :
    w.program.findStruct? name =
      (w.registry.structs.lookup name).bind fun i => w.program.structs[i]? := by
  rw [Physical.Program.findStruct?, List.find?_eq_bind_findIdx?_getElem?, h name]

theorem located (h : w.StructsIndexed) : w.StructsLocated := by
  intro name i hi
  rw [h name] at hi
  obtain ⟨hlt, hname, -⟩ := List.findIdx?_eq_some_iff_getElem.mp hi
  exact ⟨_, List.getElem?_eq_getElem hlt, by simpa using hname⟩

theorem struct?_ok_iff (h : w.StructsIndexed) :
    w.struct? name = .ok value ↔ w.program.findStruct? name = some value := by
  rw [h.findStruct?_eq, struct?]
  cases hlookup : w.registry.structs.lookup name with
  | none => simp
  | some i =>
      obtain ⟨s, hs, -⟩ := h.located name i hlookup
      simp [hs]

theorem registerStruct (h : w.StructsIndexed) (value : Struct) :
    (w.registerStruct value).StructsIndexed := by
  have hposition : ∀ (structs : List Struct) (name : String),
      structs.findIdx? (fun s => s.name == name) =
        (structs.map Struct.name).findIdx? (· == name) := by
    intro structs name
    rw [List.findIdx?_map]
    rfl
  have hnames := h.located.names_registerStruct value
  intro name
  rw [hposition, hnames]
  unfold Workspace.registerStruct
  cases hlookup : w.registry.structs.lookup value.name with
  | some i =>
      simp only [Option.isSome_some, if_true]
      rw [h name, hposition]
  | none =>
      simp only [Option.isSome_none, Bool.false_eq_true, if_false, List.lookup_cons,
        List.findIdx?_append, ← hposition, ← h name]
      by_cases hname : name = value.name
      · subst hname
        simp [hlookup]
      · have hne : (value.name == name) = false := by simpa using Ne.symm hname
        have hne' : (name == value.name) = false := by simpa using hname
        simp [hne, hne']

theorem findStruct?_registerStruct (h : w.StructsIndexed) (value : Struct)
    (name : String) :
    (w.registerStruct value).program.findStruct? name =
      if value.name = name then some value else w.program.findStruct? name := by
  ext s
  rw [← (h.registerStruct value).struct?_ok_iff, h.located.struct?_registerStruct]
  split
  · simp
  · exact h.struct?_ok_iff

end StructsIndexed

/-- The two workspaces have the same records, registered at the same positions. -/
structure SameStructs (w v : Workspace) : Prop where
  structs : v.program.structs = w.program.structs
  positions : v.registry.structs = w.registry.structs

namespace SameStructs

variable {w v u : Workspace}

theorem refl (w : Workspace) : w.SameStructs w := ⟨rfl, rfl⟩

theorem trans (h : w.SameStructs v) (h' : v.SameStructs u) : w.SameStructs u :=
  ⟨h'.structs.trans h.structs, h'.positions.trans h.positions⟩

theorem structsIndexed (h : w.SameStructs v) (hw : w.StructsIndexed) :
    v.StructsIndexed := by
  intro name
  rw [h.positions, h.structs, hw name]

theorem findStruct?_eq (h : w.SameStructs v) (name : String) :
    v.program.findStruct? name = w.program.findStruct? name := by
  rw [Physical.Program.findStruct?, h.structs, Physical.Program.findStruct?]

theorem registerStruct (h : w.SameStructs v) (value : Struct) :
    (w.registerStruct value).SameStructs (v.registerStruct value) := by
  unfold Workspace.registerStruct
  rw [h.positions]
  cases w.registry.structs.lookup value.name <;>
    exact ⟨by simp [h.structs], by simp [h.structs, h.positions]⟩

end SameStructs

structure SameRecords (w v : Workspace) : Prop where
  structs : v.program.structs = w.program.structs
  positions : v.registry.structs = w.registry.structs
  probes : v.program.probes = w.program.probes

namespace SameRecords

variable {w v : Workspace} (h : w.SameRecords v)

include h

theorem sameStructs : w.SameStructs v := ⟨h.structs, h.positions⟩

theorem registerStruct (value : Struct) :
    (w.registerStruct value).SameRecords (v.registerStruct value) := by
  obtain ⟨hstructs, hpositions⟩ := h.sameStructs.registerStruct value
  have hw : (w.registerStruct value).program.probes = w.program.probes :=
    sameProbes_registerStruct w value
  have hv : (v.registerStruct value).program.probes = v.program.probes :=
    sameProbes_registerStruct v value
  exact ⟨hstructs, hpositions, by rw [hv, hw, h.probes]⟩

end SameRecords

theorem sameRecords_writeMap (index : Nat) (map : MapDecl) (record : Struct)
    (w : Workspace) :
    (w.registerStruct record).SameRecords (Build.writeMap index map record w) := by
  have hset : w.SameRecords (w.setMap index
      { map with keyType := some .uint64, valueStruct := some record.name }) :=
    ⟨rfl, rfl, rfl⟩
  exact hset.registerStruct record

theorem sameRecords_writeBuffer (index : Nat) (buffer : PerfBuffer) (event : Struct)
    (w : Workspace) :
    (w.registerStruct event).SameRecords (Build.writeBuffer index buffer event w) := by
  have hset : w.SameRecords
      (w.setOutput index { buffer with structType := event.name }) := ⟨rfl, rfl, rfl⟩
  exact hset.registerStruct event

theorem sameRecords_declareMaps (w : Workspace) (maps : List MapDecl) :
    w.SameRecords (w.declareMaps maps) := by
  induction maps generalizing w with
  | nil => exact ⟨rfl, rfl, rfl⟩
  | cons map rest ih =>
      obtain ⟨hstructs, hpositions, hprobes⟩ := ih (w.declareMap map)
      exact ⟨hstructs, hpositions, hprobes⟩

theorem sameRecords_declareOutputs (w : Workspace) (outputs : List Logical.Output) :
    w.SameRecords (w.declareOutputs outputs) := by
  induction outputs generalizing w with
  | nil => exact ⟨rfl, rfl, rfl⟩
  | cons output rest ih =>
      obtain ⟨hstructs, hpositions, hprobes⟩ := ih (w.declareOutput output)
      exact ⟨hstructs, hpositions, hprobes⟩

theorem ofProgram_sameRecords (target : Target) (input : Logical.Program) :
    ({} : Workspace).SameRecords (ofProgram target input) := by
  have hmaps := sameRecords_declareMaps
    { program := { target, language := input.language } } input.maps
  have houtputs := sameRecords_declareOutputs
    (Workspace.declareMaps { program := { target, language := input.language } }
      input.maps) input.outputs
  exact ⟨houtputs.structs.trans hmaps.structs,
    houtputs.positions.trans hmaps.positions, houtputs.probes.trans hmaps.probes⟩

@[simp] theorem probes_ofProgram (target : Target) (input : Logical.Program) :
    (ofProgram target input).program.probes = [] :=
  (ofProgram_sameRecords target input).probes

end Workspace

end ProbeLowering
