import ProbeLowering.Proofs.Plan

/-!
# Sessions

A target is lowered by requests that declare maps and outputs and that generate
probes, in any order, and a request that fails leaves what it has written.  In
every workspace that requests reach from an empty registry, a registered name
refers to an entry of the program of that name (`Workspace.Located`).
-/

namespace ProbeLowering

open DebugInfo
open Physical (Struct PerfBuffer)
open Logical (RecordAction)

namespace Workspace

variable {w : Workspace} {name : String}

@[simp] theorem struct?_setEntry (write : RecordWrite) (w : Workspace) (name : String) :
    (write.setEntry w).struct? name = w.struct? name := by
  cases write <;> rfl

@[simp] theorem structs_setEntry (write : RecordWrite) (w : Workspace) :
    (write.setEntry w).program.structs = w.program.structs := by
  cases write <;> rfl

theorem StructsLocated.setEntry (h : w.StructsLocated) (write : RecordWrite) :
    (write.setEntry w).StructsLocated := by
  cases write <;> exact h

theorem StructsLocated.apply (h : w.StructsLocated) (write : RecordWrite) :
    (write.apply w).StructsLocated := by
  rw [write.apply_eq]
  exact (h.setEntry write).registerStruct write.record

theorem StructsLocated.struct?_apply (h : w.StructsLocated) (write : RecordWrite)
    (name : String) :
    (write.apply w).struct? name =
      if write.record.name = name then .ok write.record else w.struct? name := by
  rw [write.apply_eq, (h.setEntry write).struct?_registerStruct, struct?_setEntry]

/-- The registry finds the maps, outputs and records of the program by their names. -/
structure Located (w : Workspace) : Prop where
  structs : w.StructsLocated
  maps : w.registry.maps.Locate (fun name m => m.name = name) w.program.maps
  /-- An output is from its declaration on typed by the record that is named after it. -/
  outputs : w.registry.outputs.Locate
    (fun name o => o.name = name ∧ o.structType = structTypeName name) w.program.outputs

namespace Located

theorem start (program : Physical.Program) : ({ program } : Workspace).Located :=
  ⟨by rintro _ _ ⟨⟩, by rintro _ _ ⟨⟩, by rintro _ _ ⟨⟩⟩

variable (h : w.Located)

include h

theorem declareMap (map : MapDecl) : (w.declareMap map).Located :=
  ⟨h.structs, h.maps.declare rfl, h.outputs⟩

theorem declareOutput (output : Logical.Output) : (w.declareOutput output).Located :=
  ⟨h.structs, h.maps, h.outputs.declare ⟨rfl, rfl⟩⟩

theorem addProbe (probe : Physical.Probe) : (w.addProbe probe).Located :=
  ⟨h.structs, h.maps, h.outputs⟩

theorem registerStruct (value : Struct) : (w.registerStruct value).Located := by
  have hstructs := h.structs.registerStruct value
  obtain ⟨structs, positions, heq⟩ := w.exists_structs_registerStruct value
  rw [heq] at hstructs ⊢
  exact ⟨hstructs, h.maps, h.outputs⟩

theorem setEntry {action : RecordAction} {write : RecordWrite} (hfits : write.Fits w action) :
    (write.setEntry w).Located := by
  cases hfits with
  | @map action index decl record hentry hname =>
      obtain ⟨hindex, hdecl⟩ := map?_ok.mp hentry
      have hdeclName : decl.name = action.mapName := h.maps.belongs hindex hdecl
      exact ⟨h.structs, h.maps.set (fun ha hb => ha.symm.trans hb) hindex hdeclName,
        h.outputs⟩
  | @output action index buffer event hentry hname =>
      obtain ⟨hindex, hbuffer⟩ := output?_ok.mp hentry
      obtain ⟨hbufferName, -⟩ := h.outputs.belongs hindex hbuffer
      exact ⟨h.structs, h.maps, h.outputs.set (fun ha hb => ha.1.symm.trans hb.1) hindex
        ⟨hbufferName, hname⟩⟩

theorem apply {action : RecordAction} {write : RecordWrite} (hfits : write.Fits w action) :
    (write.apply w).Located := by
  rw [write.apply_eq]
  exact (h.setEntry hfits).registerStruct write.record

end Located

def Under (I : Workspace → Prop) (R : Workspace → Workspace → Prop)
    (w v : Workspace) : Prop :=
  I w → I v ∧ R w v

instance (I : Workspace → Prop) (R : Workspace → Workspace → Prop)
    [IsPreorder Workspace R] : IsPreorder Workspace (Under I R) where
  refl w hw := ⟨hw, refl_of R w⟩
  trans _ _ _ hwv hvu hw := by
    obtain ⟨hv, hwv⟩ := hwv hw
    obtain ⟨hu, hvu⟩ := hvu hv
    exact ⟨hu, trans_of R hwv hvu⟩

structure SameDeclarations (w v : Workspace) : Prop where
  target : v.program.target = w.program.target
  language : v.program.language = w.program.language
  probes : v.program.probes = w.program.probes
  mapNames : v.program.maps.map MapDecl.name = w.program.maps.map MapDecl.name
  outputs : v.program.outputs = w.program.outputs
  mapPositions : v.registry.maps = w.registry.maps
  outputPositions : v.registry.outputs = w.registry.outputs

instance : IsPreorder Workspace SameDeclarations where
  refl _ := ⟨rfl, rfl, rfl, rfl, rfl, rfl, rfl⟩
  trans _ _ _ h h' := ⟨h'.target.trans h.target, h'.language.trans h.language,
    h'.probes.trans h.probes, h'.mapNames.trans h.mapNames, h'.outputs.trans h.outputs,
    h'.mapPositions.trans h.mapPositions, h'.outputPositions.trans h.outputPositions⟩

theorem sameDeclarations_registerStruct (w : Workspace) (value : Struct) :
    w.SameDeclarations (w.registerStruct value) := by
  obtain ⟨structs, positions, heq⟩ := w.exists_structs_registerStruct value
  rw [heq]
  exact ⟨rfl, rfl, rfl, rfl, rfl, rfl, rfl⟩

theorem Located.sameDeclarations_setEntry (h : w.Located) {action : RecordAction}
    {write : RecordWrite} (hfits : write.Fits w action) :
    w.SameDeclarations (write.setEntry w) := by
  cases hfits with
  | @map action index decl record hentry hname =>
      obtain ⟨hindex, hdecl⟩ := map?_ok.mp hentry
      obtain ⟨hlt, rfl⟩ := List.getElem?_eq_some_iff.mp hdecl
      refine ⟨rfl, rfl, rfl, ?_, rfl, rfl, rfl⟩
      simp only [RecordWrite.setEntry, setMap, List.map_set]
      rw [← List.getElem_map MapDecl.name (h := by simpa using hlt), List.set_getElem_self]
  | @output action index buffer event hentry hname =>
      obtain ⟨hindex, hbuffer⟩ := output?_ok.mp hentry
      obtain ⟨-, htype⟩ := h.outputs.belongs hindex hbuffer
      obtain ⟨hlt, rfl⟩ := List.getElem?_eq_some_iff.mp hbuffer
      refine ⟨rfl, rfl, rfl, rfl, ?_, rfl, rfl⟩
      simp only [RecordWrite.setEntry, setOutput, hname, ← htype]
      exact List.set_getElem_self hlt

theorem Located.sameDeclarations_apply (h : w.Located) {action : RecordAction}
    {write : RecordWrite} (hfits : write.Fits w action) :
    w.SameDeclarations (write.apply w) := by
  rw [write.apply_eq]
  exact trans_of SameDeclarations (h.sameDeclarations_setEntry hfits)
    (sameDeclarations_registerStruct _ write.record)

end Workspace

/-! ## Requests -/

inductive Request where
  | declareMaps (maps : List MapDecl)
  | declareOutputs (outputs : List Logical.Output)
  | generateProbe (input : Logical.Probe)
  deriving DecidableEq, Repr

namespace Workspace

/-- The workspace that a request leaves, whether it succeeds or fails. -/
def serve (facts : Facts) (language : Language) (w : Workspace) : Request → Workspace
  | .declareMaps maps => w.declareMaps maps
  | .declareOutputs outputs => w.declareOutputs outputs
  | .generateProbe input => ((generateProbe facts language input).runFrom w).2

def serveAll (facts : Facts) (language : Language) (requests : List Request)
    (w : Workspace) : Workspace :=
  requests.foldl (serve facts language) w

/-- The workspace is what some requests make of a program that nothing is registered of. -/
def Reachable (facts : Facts) (language : Language) (w : Workspace) : Prop :=
  ∃ program requests, w = serveAll facts language requests { program }

section Requests

variable {facts : Facts} {language : Language}

theorem generateProbe_state (input : Logical.Probe) (w : Workspace) :
    (∃ probe, ((generateProbe facts language input).runFrom w).2 =
      (w.lowerProbe facts language input).2.addProbe probe) ∨
    ((generateProbe facts language input).runFrom w).2 =
      (w.lowerProbe facts language input).2 := by
  rw [runFrom_generateProbe]
  rcases w.lowerProbe facts language input with ⟨_ | probe, v⟩
  · exact .inr rfl
  · exact .inl ⟨probe, rfl⟩

theorem Located.lowerProbe {w : Workspace} (h : w.Located) (input : Logical.Probe) :
    (w.lowerProbe facts language input).2.Located ∧
      w.SameDeclarations (w.lowerProbe facts language input).2 :=
  related_of_lowerProbe (R := Under Located SameDeclarations)
    (fun _ _ _ _ hfits hw => ⟨hw.apply hfits, hw.sameDeclarations_apply hfits⟩) w h

theorem sameProbes_apply (write : RecordWrite) (w : Workspace) :
    SameProbes w (write.apply w) := by
  cases write with
  | map index decl record => exact sameProbes_writeMap index decl record w
  | output index buffer event => exact sameProbes_writeBuffer index buffer event w

theorem kept_of_lowerProbe {I : Workspace → Prop}
    (hI : ∀ w action (write : RecordWrite), write.Fits w action → I w → I (write.apply w))
    {w : Workspace} (hw : I w) (input : Logical.Probe) :
    I (w.lowerProbe facts language input).2 :=
  (related_of_lowerProbe (R := Under I SameProbes) (fun action _ w write hfits hw =>
    ⟨hI w action write hfits hw, sameProbes_apply write w⟩) w hw).1

theorem kept_of_run {I : Workspace → Prop}
    (hI : ∀ w action (write : RecordWrite), write.Fits w action → I w → I (write.apply w))
    (hprobe : ∀ w probe, I w → I (w.addProbe probe)) {probes : List Logical.Probe}
    {w u : Workspace} (hw : I w)
    (h : (generateProbes facts language probes).runFrom w = (.ok (), u)) : I u := by
  refine invariant_of_run (I := fun _ w => I w) (fun _ input w v probe hw hlowered => ?_) hw h
  have hv : I (w.lowerProbe facts language input).2 := kept_of_lowerProbe hI hw input
  rw [hlowered] at hv
  exact hprobe v probe hv

/-- What declarations, fitting writes and new probes keep is kept by all requests. -/
theorem invariant_of_serveAll {I : Workspace → Prop}
    (hmap : ∀ w map, I w → I (w.declareMap map))
    (houtput : ∀ w output, I w → I (w.declareOutput output))
    (hwrite : ∀ w action (write : RecordWrite), write.Fits w action → I w →
      I (write.apply w))
    (hprobe : ∀ w probe, I w → I (w.addProbe probe))
    (requests : List Request) {w : Workspace} (hw : I w) :
    I (serveAll facts language requests w) := by
  induction requests generalizing w with
  | nil => exact hw
  | cons request rest ih =>
      refine ih (w := w.serve facts language request) ?_
      cases request with
      | declareMaps maps => exact List.foldlRecOn maps _ hw fun w hw map _ => hmap w map hw
      | declareOutputs outputs =>
          exact List.foldlRecOn outputs _ hw fun w hw output _ => houtput w output hw
      | generateProbe input =>
          have hlowered : I (w.lowerProbe facts language input).2 :=
            kept_of_lowerProbe hwrite hw input
          rcases generateProbe_state input w with ⟨probe, hstate⟩ | hstate
          · rw [serve, hstate]
            exact hprobe _ probe hlowered
          · rw [serve, hstate]
            exact hlowered

theorem Reachable.located {w : Workspace} (h : w.Reachable facts language) :
    w.Located := by
  obtain ⟨program, requests, rfl⟩ := h
  exact invariant_of_serveAll (fun _ map hw => hw.declareMap map)
    (fun _ output hw => hw.declareOutput output)
    (fun _ _ _ hfits hw => hw.apply hfits) (fun _ probe hw => hw.addProbe probe)
    requests (Located.start program)

end Requests

end Workspace

/-- Asks for a key that C has no variable for, which shows only after its stash is written. -/
def keylessProbe : Logical.Probe where
  name := "keyless"
  tracepoint := ⟨"main.Serve", .entry⟩
  stashes := [{ mapName := "calls", key := .goid, valueVariables := ["time_"] }]

def keyedProbe : Logical.Probe where
  name := "keyed"
  tracepoint := ⟨"main.Serve", .entry⟩
  stashes := [{ mapName := "calls", key := .tgid, valueVariables := ["tgid_", "time_"] }]
  outputs := [⟨"events", ["tgid_"]⟩]

def callsDeclared : List Request := [.declareMaps [{ name := "calls" }]]

def mixedSession : List Request :=
  callsDeclared ++ [.generateProbe keylessProbe, .declareOutputs [⟨"events", ["pid"]⟩],
    .generateProbe keyedProbe]

end ProbeLowering
