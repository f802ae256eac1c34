import ProbeLowering.Proofs.Session

/-!
# Footprints of probes

A probe looks up the maps that it reads and those that it stashes to, its outputs,
and the records behind them (`Logical.Probe.touchedNames`); of a map that it deletes
from it only asks whether there is one.  In two workspaces that agree on these names
a probe is lowered with the same outcome and the same writes (`lowerProbe_congr`).
Writes for other names keep the agreement (`Located.agreesOn_applyAll`).
-/

namespace ProbeLowering

open DebugInfo
open Logical (RecordAction)

namespace Logical.Probe

def writtenNames (probe : Logical.Probe) : List String :=
  probe.recordActions.map RecordAction.owner

/-- Maps and outputs that the probe reads or writes a record of. -/
def touchedNames (probe : Logical.Probe) : List String :=
  probe.mapVals.map (·.mapName) ++ probe.writtenNames

theorem owner_mem_touchedNames {probe : Logical.Probe} {action : RecordAction}
    (h : action ∈ probe.recordActions) : action.owner ∈ probe.touchedNames :=
  List.mem_append_right _ (List.mem_map_of_mem h)

end Logical.Probe

def RecordWrite.typedMap? : RecordWrite → Option (Nat × MapDecl)
  | .map index decl record =>
      some (index, { decl with keyType := some .uint64, valueStruct := some record.name })
  | .output .. => none

namespace Workspace

variable {w v : Workspace} {names : List String} {action : RecordAction}
  {write : RecordWrite}

theorem maps_apply (write : RecordWrite) (w : Workspace) :
    (write.apply w).program.maps =
      match write.typedMap? with
      | some (index, decl) => w.program.maps.set index decl
      | none => w.program.maps := by
  obtain ⟨structs, positions, heq⟩ :=
    (write.setEntry w).exists_structs_registerStruct write.record
  rw [write.apply_eq, heq]
  cases write <;> rfl

namespace Located

theorem output?_apply (h : w.Located) (hfits : write.Fits w action) (name : String) :
    (write.apply w).output? name = w.output? name := by
  have hsame := h.sameDeclarations_apply hfits
  unfold output?
  rw [hsame.outputPositions, hsame.outputs]

theorem map?_apply (h : w.Located) (hfits : write.Fits w action) (name : String) :
    (write.apply w).map? name =
      match write.typedMap? with
      | some entry => if action.owner = name then .ok entry else w.map? name
      | none => w.map? name := by
  have hpositions := (h.sameDeclarations_apply hfits).mapPositions
  have hmaps := maps_apply write w
  cases hfits with
  | @map action index decl record hentry hname =>
      obtain ⟨hindex, hdecl⟩ := map?_ok.mp hentry
      obtain ⟨hlt, -⟩ := List.getElem?_eq_some_iff.mp hdecl
      simp only [RecordWrite.typedMap?] at hmaps ⊢
      by_cases howner : (RecordAction.stash action).owner = name
      · subst howner
        rw [if_pos rfl]
        exact map?_ok.mpr ⟨hpositions ▸ hindex, by simp [hmaps, hlt]⟩
      · rw [if_neg howner, map?, map?, hpositions, hmaps]
        cases hother : w.registry.maps.lookup name with
        | none => rfl
        | some j =>
            have hij : index ≠ j := by
              rintro rfl
              exact howner (h.maps.name_eq (fun ha hb => ha.symm.trans hb) hindex hother)
            simp only [List.getElem?_set_ne hij]
  | @output action index buffer event hentry hname =>
      simp only [RecordWrite.typedMap?] at hmaps ⊢
      rw [map?, map?, hpositions, hmaps]

theorem declared_apply (h : w.Located) (hfits : write.Fits w action) (name : String) :
    ((write.apply w).map? name).map (fun _ => ()) = (w.map? name).map fun _ => () := by
  rw [h.map?_apply hfits]
  cases hfits with
  | @map action index decl record hentry hname =>
      simp only [RecordWrite.typedMap?]
      by_cases howner : (RecordAction.stash action).owner = name
      · rw [if_pos howner, ← howner, RecordAction.owner, hentry]
        rfl
      · rw [if_neg howner]
  | @output action index buffer event hentry hname => rfl

end Located

/-- A probe that touches no other names cannot tell the workspaces apart. -/
structure AgreesOn (names : List String) (w v : Workspace) : Prop where
  maps : ∀ name ∈ names, w.map? name = v.map? name
  outputs : ∀ name ∈ names, w.output? name = v.output? name
  structs : ∀ name ∈ names,
    w.struct? (structTypeName name) = v.struct? (structTypeName name)
  /-- The same maps are declared under all names. -/
  declared : ∀ name, (w.map? name).map (fun _ => ()) = (v.map? name).map fun _ => ()

instance : IsPreorder Workspace (AgreesOn names) where
  refl _ := ⟨fun _ _ => rfl, fun _ _ => rfl, fun _ _ => rfl, fun _ => rfl⟩
  trans _ _ _ h h' :=
    ⟨fun name hname => (h.maps name hname).trans (h'.maps name hname),
      fun name hname => (h.outputs name hname).trans (h'.outputs name hname),
      fun name hname => (h.structs name hname).trans (h'.structs name hname),
      fun name => (h.declared name).trans (h'.declared name)⟩

theorem agreesOn_addProbe (names : List String) (w : Workspace) (probe : Physical.Probe) :
    w.AgreesOn names (w.addProbe probe) :=
  ⟨fun _ _ => rfl, fun _ _ => rfl, fun _ _ => rfl, fun _ => rfl⟩

theorem Located.agreesOn_apply (h : w.Located) (hfits : write.Fits w action)
    (howner : action.owner ∉ names) : w.AgreesOn names (write.apply w) := by
  have hne : ∀ name ∈ names, action.owner ≠ name :=
    fun name hname heq => howner (heq ▸ hname)
  refine ⟨fun name hname => ?_, fun name _ => (h.output?_apply hfits name).symm,
    fun name hname => ?_, fun name => (h.declared_apply hfits name).symm⟩
  · rw [h.map?_apply hfits]
    cases write.typedMap? with
    | none => rfl
    | some entry => exact (if_neg (hne name hname)).symm
  · have hrecord : write.record.name ≠ structTypeName name := by
      rw [hfits.record_name, Ne, structTypeName_inj]
      exact hne name hname
    rw [h.structs.struct?_apply, if_neg hrecord]

theorem Located.agreesOn_applyAll (h : w.Located) {actions : List RecordAction}
    {writes : List RecordWrite} (hfit : RecordWrite.FitFrom actions w writes)
    (hnames : ∀ action ∈ actions, action.owner ∉ names) :
    w.AgreesOn names (RecordWrite.applyAll writes w) :=
  (hfit.related (R := Under Located (AgreesOn names))
    (fun action haction _ _ hfits hw =>
      ⟨hw.apply hfits, hw.agreesOn_apply hfits (hnames action haction)⟩) h).2

namespace AgreesOn

variable (h : w.AgreesOn names v)

include h

theorem fits (howner : action.owner ∈ names) (hfits : write.Fits w action) :
    write.Fits v action := by
  cases hfits with
  | map hentry hname => exact .map (h.maps _ howner ▸ hentry) hname
  | output hentry hname => exact .output (h.outputs _ howner ▸ hentry) hname

theorem apply (hw : w.Located) (hv : v.Located) (howner : action.owner ∈ names)
    (hfits : write.Fits w action) : (write.apply w).AgreesOn names (write.apply v) := by
  have hfits' := h.fits howner hfits
  refine ⟨fun name hname => ?_, fun name hname => ?_, fun name hname => ?_, fun name => ?_⟩
  · rw [hw.map?_apply hfits, hv.map?_apply hfits', h.maps name hname]
  · rw [hw.output?_apply hfits, hv.output?_apply hfits', h.outputs name hname]
  · rw [hw.structs.struct?_apply, hv.structs.struct?_apply, h.structs name hname]
  · rw [hw.declared_apply hfits, hv.declared_apply hfits', h.declared name]

theorem fitFrom (hw : w.Located) (hv : v.Located) {actions : List RecordAction}
    (howners : ∀ action ∈ actions, action.owner ∈ names) {writes : List RecordWrite}
    (hfit : RecordWrite.FitFrom actions w writes) :
    RecordWrite.FitFrom actions v writes := by
  induction writes generalizing w v with
  | nil => trivial
  | cons write rest ih =>
      obtain ⟨⟨action, haction, hfits⟩, hrest⟩ := hfit
      have howner := howners action haction
      have hfits' := h.fits howner hfits
      exact ⟨⟨action, haction, hfits'⟩,
        ih (h.apply hw hv howner hfits) (hw.apply hfits) (hv.apply hfits') hrest⟩

end AgreesOn

end Workspace

/-! ## Two runs of a probe -/

namespace Plan

variable {setting : Setting} {input : Logical.Probe} {plan : Plan} {plans : List Plan}
  {w v : Workspace}

/-- What a part is going to do depends on the scope and the touched names only. -/
theorem eq_of_agreesOn (hmem : plan ∈ ofProbe setting input)
    (h : w.AgreesOn input.touchedNames v) (scope : Scope) :
    plan ⟨w, scope⟩ = plan ⟨v, scope⟩ := by
  rcases mem_ofProbe hmem with ⟨step, rfl⟩ | ⟨value, hvalue, rfl⟩ | ⟨action, rfl⟩ |
    ⟨action, haction, rfl⟩
  · rfl
  · have hname : value.mapName ∈ input.touchedNames :=
      List.mem_append_left _ (List.mem_map_of_mem hvalue)
    simp only [read, Build.readLayout, h.maps _ hname, h.structs _ hname]
  · have hdeclared := h.declared action.mapName
    unfold delete
    cases hw : w.map? action.mapName <;> cases hv : v.map? action.mapName <;>
      rw [hw, hv] at hdeclared <;> cases hdeclared <;> rfl
  · have howner := Logical.Probe.owner_mem_touchedNames haction
    cases action with
    | stash action =>
        have hmap := h.maps action.mapName howner
        simp only [write, Build.stashRecord, hmap]
    | output action =>
        have houtput := h.outputs action.outputName howner
        simp only [write, Build.outputRecord, houtput]

theorem agreesOn_of_effect (hmem : plan ∈ ofProbe setting input) (hw : w.Located)
    (hv : v.Located) (h : w.AgreesOn input.touchedNames v) {scope : Scope}
    {effect : Effect} (heffect : plan ⟨w, scope⟩ = .ok effect) :
    (RecordWrite.applyAll effect.write?.toList w).Located ∧
      (RecordWrite.applyAll effect.write?.toList v).Located ∧
      (RecordWrite.applyAll effect.write?.toList w).AgreesOn input.touchedNames
        (RecordWrite.applyAll effect.write?.toList v) := by
  cases hx : effect.write? with
  | none => exact ⟨hw, hv, h⟩
  | some x =>
      obtain ⟨action, haction, hfits⟩ := fits_of_mem hmem heffect hx
      have howner := Logical.Probe.owner_mem_touchedNames haction
      exact ⟨hw.apply hfits, hv.apply (h.fits howner hfits), h.apply hw hv howner hfits⟩

theorem run_congr (hplans : plans ⊆ ofProbe setting input) (scope : Scope)
    (hw : w.Located) (hv : v.Located) (h : w.AgreesOn input.touchedNames v) :
    writes plans ⟨w, scope⟩ = writes plans ⟨v, scope⟩ ∧
      ((Step.sequence (plans.map step)).runFrom ⟨w, scope⟩).1 =
        ((Step.sequence (plans.map step)).runFrom ⟨v, scope⟩).1 ∧
      ((Step.sequence (plans.map step)).runFrom ⟨w, scope⟩).2.scope =
        ((Step.sequence (plans.map step)).runFrom ⟨v, scope⟩).2.scope := by
  -- The scopes stay equal and the workspaces in agreement, part by part.
  induction plans generalizing scope w v with
  | nil => exact ⟨rfl, rfl, rfl⟩
  | cons plan rest ih =>
      have hmem : plan ∈ ofProbe setting input := hplans (by simp)
      have hrest : rest ⊆ ofProbe setting input := fun _ hnext => hplans (by simp [hnext])
      have hplan := eq_of_agreesOn hmem h scope
      simp only [writes, List.map_cons, Step.sequence, Step.runFrom_bind, runFrom_step,
        ← hplan]
      cases heffect : plan ⟨w, scope⟩ with
      | error e => exact ⟨rfl, rfl, rfl⟩
      | ok effect =>
          simp only [Effect.runFrom_perform]
          rcases effect.declare.runFrom scope with ⟨_ | _, next⟩
          · exact ⟨rfl, rfl, rfl⟩
          · obtain ⟨hw', hv', h'⟩ := agreesOn_of_effect hmem hw hv h heffect
            obtain ⟨hwrites, houtcome, hscope⟩ := ih hrest next hw' hv' h'
            exact ⟨congrArg (effect.write?.toList ++ ·) hwrites, houtcome, hscope⟩

end Plan

namespace Workspace

variable {facts : Facts} {language : Language} {input : Logical.Probe}
  {w v : Workspace}

theorem lowerProbe_congr (hw : w.Located) (hv : v.Located)
    (h : w.AgreesOn input.touchedNames v) :
    (w.lowerProbe facts language input).1 = (v.lowerProbe facts language input).1 ∧
      w.probeWrites facts language input = v.probeWrites facts language input := by
  unfold lowerProbe probeWrites
  cases Setting.ofSymbol facts language input.tracepoint.symbol with
  | error e => exact ⟨rfl, rfl⟩
  | ok setting =>
      obtain ⟨hwrites, houtcome, hscope⟩ := Plan.run_congr
        (List.Subset.refl (Plan.ofProbe setting input))
        (Scope.start input.name input.tracepoint) hw hv h
      refine ⟨?_, hwrites⟩
      simp only [Build.lowerParts_eq_sequence, ← Plan.map_step_ofProbe]
      generalize (Step.sequence ((Plan.ofProbe setting input).map Plan.step)).runFrom
        ⟨w, Scope.start input.name input.tracepoint⟩ = first at houtcome hscope ⊢
      generalize (Step.sequence ((Plan.ofProbe setting input).map Plan.step)).runFrom
        ⟨v, Scope.start input.name input.tracepoint⟩ = second at houtcome hscope ⊢
      obtain ⟨outcome, b⟩ := first
      obtain ⟨outcome', c⟩ := second
      cases houtcome
      cases outcome with
      | error e => rfl
      | ok _ => exact congrArg (fun scope : Scope => Except.ok scope.probe) hscope

theorem lowerProbe_after (hw : w.Located) {earlier : Logical.Probe}
    (hnames : ∀ name ∈ earlier.writtenNames, name ∉ input.touchedNames)
    (probe : Physical.Probe) :
    (((w.lowerProbe facts language earlier).2.addProbe probe).lowerProbe facts language
        input).1 = (w.lowerProbe facts language input).1 ∧
      ((w.lowerProbe facts language earlier).2.addProbe probe).probeWrites facts language
        input = w.probeWrites facts language input := by
  have hv : (w.lowerProbe facts language earlier).2.Located := (hw.lowerProbe earlier).1
  have hwritten : w.AgreesOn input.touchedNames (w.lowerProbe facts language earlier).2 := by
    rw [workspace_of_lowerProbe]
    exact hw.agreesOn_applyAll (fitFrom_probeWrites w) fun action haction =>
      hnames _ (List.mem_map_of_mem haction)
  have hagrees : w.AgreesOn input.touchedNames
      ((w.lowerProbe facts language earlier).2.addProbe probe) :=
    trans_of (AgreesOn input.touchedNames) hwritten (agreesOn_addProbe _ _ probe)
  obtain ⟨houtcome, hwrites⟩ := lowerProbe_congr hw (hv.addProbe probe) hagrees
  exact ⟨houtcome.symm, hwrites.symm⟩

theorem workspace_of_lowerProbe_after (hw : w.Located) {earlier : Logical.Probe}
    (hnames : ∀ name ∈ earlier.writtenNames, name ∉ input.touchedNames)
    (probe : Physical.Probe) :
    (((w.lowerProbe facts language earlier).2.addProbe probe).lowerProbe facts language
        input).2 =
      RecordWrite.applyAll (w.probeWrites facts language input)
        ((RecordWrite.applyAll (w.probeWrites facts language earlier) w).addProbe
          probe) := by
  rw [← workspace_of_lowerProbe w, ← (lowerProbe_after hw hnames probe).2,
    ← workspace_of_lowerProbe]

end Workspace

end ProbeLowering
