import Mathlib.Data.List.Perm.Basic
import ProbeLowering.Proofs.Footprint

/-!
# Independent probes

Two probes are independent if neither writes a record under a name that the other one
reads or writes a record of.  Their writes then commute, up to the order in which new
records are appended, and so do the probes themselves (`independent_probes_commute`):
each is lowered to the same physical probe whichever comes first.
-/

namespace ProbeLowering

open DebugInfo
open Physical (Struct)
open Logical (RecordAction)

/-- Neither probe writes a record under a name that the other one touches. -/
def Logical.Probe.Independent (p q : Logical.Probe) : Prop :=
  (∀ name ∈ p.writtenNames, name ∉ q.touchedNames) ∧
    ∀ name ∈ q.writtenNames, name ∉ p.touchedNames

instance (p q : Logical.Probe) : Decidable (p.Independent q) :=
  inferInstanceAs (Decidable (_ ∧ _))

namespace Workspace

variable {w v : Workspace} {names : List String}

theorem StructsLocated.perm_registerStruct (h : w.StructsLocated) (value : Struct) :
    ((w.struct? value.name).toOption.toList ++
      (w.registerStruct value).program.structs).Perm (value :: w.program.structs) := by
  unfold Workspace.registerStruct struct?
  cases hlookup : w.registry.structs.lookup value.name with
  | some i =>
      obtain ⟨old, hold, -⟩ := h value.name i hlookup
      simpa [hold, Except.toOption] using List.getD_set_perm_cons w.program.structs i value
  | none => simp [Except.toOption, List.perm_append_singleton]

theorem StructsLocated.perm_apply (h : w.StructsLocated) (write : RecordWrite) :
    ((w.struct? write.record.name).toOption.toList ++
      (write.apply w).program.structs).Perm (write.record :: w.program.structs) := by
  rw [write.apply_eq]
  simpa using (h.setEntry write).perm_registerStruct write.record

section Apply

variable (h : w.StructsLocated) {x y : RecordWrite} (hne : x.record.name ≠ y.record.name)

include h hne

theorem StructsLocated.perm_apply_comm :
    (y.apply (x.apply w)).program.structs.Perm (x.apply (y.apply w)).program.structs := by
  have hx := h.perm_apply x
  have hy := h.perm_apply y
  have hxy := (h.apply x).perm_apply y
  have hyx := (h.apply y).perm_apply x
  rw [h.struct?_apply, if_neg hne] at hxy
  rw [h.struct?_apply, if_neg hne.symm] at hyx
  -- Either side has both records and neither of the two that stood in their places.
  refine List.perm_iff_count.mpr fun s => ?_
  have hx := hx.count_eq s
  have hy := hy.count_eq s
  have hxy := hxy.count_eq s
  have hyx := hyx.count_eq s
  simp only [List.count_append, List.count_cons] at hx hy hxy hyx
  omega

theorem StructsLocated.struct?_apply_comm (name : String) :
    (y.apply (x.apply w)).struct? name = (x.apply (y.apply w)).struct? name := by
  simp only [h.struct?_apply, (h.apply x).struct?_apply, (h.apply y).struct?_apply]
  by_cases hname : y.record.name = name
  · subst hname
    rw [if_pos rfl, if_neg hne, if_pos rfl]
  · rw [if_neg hname, if_neg hname]

end Apply

structure Alike (w v : Workspace) : Prop where
  maps : w.program.maps = v.program.maps
  outputs : w.program.outputs = v.program.outputs
  perm : w.program.structs.Perm v.program.structs
  lookups : ∀ name, w.struct? name = v.struct? name
  left : w.StructsLocated
  right : v.StructsLocated

namespace Alike

theorem refl (h : w.StructsLocated) : w.Alike w :=
  ⟨rfl, rfl, .refl _, fun _ => rfl, h, h⟩

theorem trans {u : Workspace} (h : w.Alike v) (h' : v.Alike u) : w.Alike u :=
  ⟨h.maps.trans h'.maps, h.outputs.trans h'.outputs, h.perm.trans h'.perm,
    fun name => (h.lookups name).trans (h'.lookups name), h.left, h'.right⟩

theorem symm (h : w.Alike v) : v.Alike w :=
  ⟨h.maps.symm, h.outputs.symm, h.perm.symm, fun name => (h.lookups name).symm, h.right,
    h.left⟩

theorem addProbe (h : w.StructsLocated) (probe : Physical.Probe) :
    (w.addProbe probe).Alike w :=
  ⟨rfl, rfl, .refl _, fun _ => rfl, h, h⟩

theorem registerStruct (h : w.Alike v) (value : Struct) :
    (w.registerStruct value).Alike (v.registerStruct value) := by
  obtain ⟨structs, positions, heq⟩ := w.exists_structs_registerStruct value
  obtain ⟨structs', positions', heq'⟩ := v.exists_structs_registerStruct value
  refine ⟨?_, ?_, ?_, fun name => ?_, h.left.registerStruct value,
    h.right.registerStruct value⟩
  · rw [heq, heq']
    exact h.maps
  · rw [heq, heq']
    exact h.outputs
  · have hw := h.left.perm_registerStruct value
    have hv := h.right.perm_registerStruct value
    rw [h.lookups value.name] at hw
    exact (List.perm_append_left_iff _).mp (hw.trans ((h.perm.cons value).trans hv.symm))
  · rw [h.left.struct?_registerStruct, h.right.struct?_registerStruct, h.lookups name]

theorem setEntry (h : w.Alike v) (write : RecordWrite) :
    (write.setEntry w).Alike (write.setEntry v) := by
  obtain ⟨hmaps, houtputs, hperm, hlookups, hw, hv⟩ := h
  cases write with
  | map index decl record =>
      exact ⟨by simp [RecordWrite.setEntry, setMap, hmaps], houtputs, hperm, hlookups, hw, hv⟩
  | output index buffer event =>
      exact ⟨hmaps, by simp [RecordWrite.setEntry, setOutput, houtputs], hperm, hlookups, hw,
        hv⟩

theorem apply (h : w.Alike v) (write : RecordWrite) :
    (write.apply w).Alike (write.apply v) := by
  rw [write.apply_eq, write.apply_eq]
  exact (h.setEntry write).registerStruct write.record

theorem applyAll (h : w.Alike v) (writes : List RecordWrite) :
    (RecordWrite.applyAll writes w).Alike (RecordWrite.applyAll writes v) := by
  induction writes generalizing w v with
  | nil => exact h
  | cons write rest ih => exact ih (h.apply write)

end Alike

section Writes

variable {first second : RecordAction} {x y : RecordWrite} (h : w.Located)
  (hx : x.Fits w first)

include h hx

theorem fits_apply_of_ne (hy : y.Fits w second) (hne : first.owner ≠ second.owner) :
    y.Fits (x.apply w) second := by
  have hagrees : w.AgreesOn [second.owner] (x.apply w) :=
    h.agreesOn_apply hx (by simpa using hne)
  exact hagrees.fits (by simp) hy

theorem maps_apply_comm (hy : y.Fits w second) (hne : first.owner ≠ second.owner) :
    (y.apply (x.apply w)).program.maps = (x.apply (y.apply w)).program.maps := by
  simp only [maps_apply]
  cases hx with
  | output => rfl
  | @map first i decl record hfirst _ =>
      cases hy with
      | output => rfl
      | @map second j decl' record' hsecond _ =>
          obtain ⟨hi, -⟩ := map?_ok.mp hfirst
          obtain ⟨hj, -⟩ := map?_ok.mp hsecond
          have hij : i ≠ j := by
            rintro rfl
            exact hne (h.maps.name_eq (fun ha hb => ha.symm.trans hb) hi hj)
          exact List.set_comm _ _ hij

theorem alike_apply_comm (hy : y.Fits w second) (hne : first.owner ≠ second.owner) :
    (y.apply (x.apply w)).Alike (x.apply (y.apply w)) := by
  have hy' := fits_apply_of_ne h hx hy hne
  have hx' := fits_apply_of_ne h hy hx hne.symm
  have hxy := trans_of SameDeclarations (h.sameDeclarations_apply hx)
    ((h.apply hx).sameDeclarations_apply hy')
  have hyx := trans_of SameDeclarations (h.sameDeclarations_apply hy)
    ((h.apply hy).sameDeclarations_apply hx')
  have hrecord : x.record.name ≠ y.record.name := by
    rwa [hx.record_name, hy.record_name, Ne, structTypeName_inj]
  exact ⟨maps_apply_comm h hx hy hne, hxy.outputs.trans hyx.outputs.symm,
    h.structs.perm_apply_comm hrecord, h.structs.struct?_apply_comm hrecord,
    (h.structs.apply x).apply y, (h.structs.apply y).apply x⟩

theorem alike_applyAll_apply {actions : List RecordAction} {ys : List RecordWrite}
    (hys : RecordWrite.FitFrom actions w ys)
    (hne : ∀ action ∈ actions, first.owner ≠ action.owner) :
    (RecordWrite.applyAll ys (x.apply w)).Alike (x.apply (RecordWrite.applyAll ys w)) := by
  induction ys generalizing w with
  | nil => exact .refl (h.apply hx).structs
  | cons y ys ih =>
      obtain ⟨⟨action, haction, hy⟩, hrest⟩ := hys
      have hswap := alike_apply_comm h hx hy (hne action haction)
      have hx' := fits_apply_of_ne h hy hx (hne action haction).symm
      exact (hswap.applyAll ys).trans (ih (h.apply hy) hx' hrest)

end Writes

/-- The writes for two sets of names may be made in either order. -/
theorem alike_applyAll_comm (h : w.Located) {firsts seconds : List RecordAction}
    {xs ys : List RecordWrite} (hxs : RecordWrite.FitFrom firsts w xs)
    (hys : RecordWrite.FitFrom seconds w ys)
    (hne : ∀ first ∈ firsts, ∀ second ∈ seconds, first.owner ≠ second.owner) :
    (RecordWrite.applyAll ys (RecordWrite.applyAll xs w)).Alike
      (RecordWrite.applyAll xs (RecordWrite.applyAll ys w)) := by
  induction xs generalizing w with
  | nil => exact (Alike.refl h.structs).applyAll ys
  | cons x xs ih =>
      obtain ⟨⟨first, hfirst, hx⟩, hrest⟩ := hxs
      have hagrees : w.AgreesOn (seconds.map RecordAction.owner) (x.apply w) := by
        refine h.agreesOn_apply hx fun hmem => ?_
        obtain ⟨second, hsecond, heq⟩ := List.mem_map.mp hmem
        exact hne first hfirst second hsecond heq.symm
      have hys' := hagrees.fitFrom h (h.apply hx)
        (fun _ hsecond => List.mem_map_of_mem hsecond) hys
      have hpast := alike_applyAll_apply h hx hys (hne first hfirst)
      exact (ih (h.apply hx) hrest hys').trans (hpast.applyAll xs)

/-! ## Probes -/

theorem alike_lowerProbe_comm (facts : Facts) (language : Language) (h : w.Located)
    {p q : Logical.Probe} (hpq : p.Independent q) (p' q' : Physical.Probe) :
    (((w.lowerProbe facts language p).2.addProbe p').lowerProbe facts language q).2.Alike
      (((w.lowerProbe facts language q).2.addProbe q').lowerProbe facts language p).2 := by
  have hne : ∀ first ∈ p.recordActions, ∀ second ∈ q.recordActions,
      first.owner ≠ second.owner := fun first hfirst second hsecond heq =>
    hpq.1 _ (List.mem_map_of_mem hfirst)
      (heq ▸ Logical.Probe.owner_mem_touchedNames hsecond)
  have hcomm : (RecordWrite.applyAll (w.probeWrites facts language q)
        (RecordWrite.applyAll (w.probeWrites facts language p) w)).Alike
      (RecordWrite.applyAll (w.probeWrites facts language p)
        (RecordWrite.applyAll (w.probeWrites facts language q) w)) :=
    alike_applyAll_comm h (fitFrom_probeWrites w) (fitFrom_probeWrites w) hne
  have hlocated : ∀ writes, (RecordWrite.applyAll writes w).StructsLocated :=
    fun writes => ((Alike.refl h.structs).applyAll writes).left
  have hp := (Alike.addProbe (hlocated (w.probeWrites facts language p)) p').applyAll
    (w.probeWrites facts language q)
  have hq := (Alike.addProbe (hlocated (w.probeWrites facts language q)) q').applyAll
    (w.probeWrites facts language p)
  rw [workspace_of_lowerProbe_after h hpq.1, workspace_of_lowerProbe_after h hpq.2]
  exact hp.trans (hcomm.trans hq.symm)

theorem probes_of_lowerProbe_after {facts : Facts} {language : Language}
    {p q : Logical.Probe} {p' q' : Physical.Probe} {w₁ w₂ : Workspace}
    (hp : w.lowerProbe facts language p = (.ok p', w₁))
    (hq : (w₁.addProbe p').lowerProbe facts language q = (.ok q', w₂)) :
    (w₂.addProbe q').program.probes = w.program.probes ++ [p', q'] := by
  have hw₁ : w₁.program.probes = w.program.probes := sameProbes_of_lowerProbe hp
  have hw₂ : w₂.program.probes = w₁.program.probes ++ [p'] := sameProbes_of_lowerProbe hq
  simp [addProbe, hw₂, hw₁]

/--
Independent probes that are lowered one after the other are lowered in the other order
too.  Each becomes the same physical probe, maps and outputs end the same, and the
records are the same up to their order.
-/
theorem independent_probes_commute {facts : Facts} {language : Language} {w u : Workspace}
    (hw : w.Reachable facts language) {p q : Logical.Probe} (hpq : p.Independent q)
    (h : (generateProbes facts language [p, q]).runFrom w = (.ok (), u)) :
    ∃ v p' q', (generateProbes facts language [q, p]).runFrom w = (.ok (), v) ∧
      u.program.probes = w.program.probes ++ [p', q'] ∧
      v.program.probes = w.program.probes ++ [q', p'] ∧
      v.program.maps = u.program.maps ∧ v.program.outputs = u.program.outputs ∧
      v.program.structs.Perm u.program.structs := by
  obtain ⟨p', w₁, hp, hrest⟩ := runFrom_generateProbes_cons_ok.mp h
  obtain ⟨q', w₂, hq, hnil⟩ := runFrom_generateProbes_cons_ok.mp hrest
  cases hnil
  obtain rfl : (w.lowerProbe facts language p).2 = w₁ := by rw [hp]
  obtain rfl : (((w.lowerProbe facts language p).2.addProbe p').lowerProbe facts language
      q).2 = w₂ := by rw [hq]
  -- Neither outcome depends on which probe comes first.
  have hq' : w.lowerProbe facts language q =
      (.ok q', (w.lowerProbe facts language q).2) := by
    refine Prod.ext ?_ rfl
    rw [← (lowerProbe_after hw.located hpq.1 p').1, hq]
  have hp' : ((w.lowerProbe facts language q).2.addProbe q').lowerProbe facts language p =
      (.ok p', (((w.lowerProbe facts language q).2.addProbe q').lowerProbe facts language
        p).2) := by
    refine Prod.ext ?_ rfl
    rw [(lowerProbe_after hw.located hpq.2 q').1, hp]
  have hrun : (generateProbes facts language [q, p]).runFrom w = (.ok (), _) :=
    runFrom_generateProbes_cons_ok.mpr ⟨q', _, hq',
      runFrom_generateProbes_cons_ok.mpr ⟨p', _, hp', rfl⟩⟩
  have halike := alike_lowerProbe_comm facts language hw.located hpq p' q'
  exact ⟨_, p', q', hrun, probes_of_lowerProbe_after hp hq,
    probes_of_lowerProbe_after hq' hp', halike.maps.symm, halike.outputs.symm,
    halike.perm.symm⟩

end Workspace

def stashingProbe : Logical.Probe where
  name := "stash"
  tracepoint := ⟨"main.Serve", .entry⟩
  stashes := [{ mapName := "calls", key := .tgid, valueVariables := ["time_"] }]

def sendingProbe : Logical.Probe where
  name := "send"
  tracepoint := ⟨"main.Serve", .entry⟩
  deletes := [⟨"calls", .tgid⟩]
  outputs := [⟨"events", ["tgid_"]⟩]

namespace Workspace

def declaredWorkspace : Workspace :=
  serveAll callFacts .c (callsDeclared ++ [.declareOutputs [⟨"events", ["pid"]⟩]])
    { program := {} }

def lowered (probes : List Logical.Probe) : Workspace :=
  ((generateProbes callFacts .c probes).runFrom declaredWorkspace).2

theorem independent_probes_commute_sendingProbe :
    declaredWorkspace.Reachable callFacts .c ∧ stashingProbe.Independent sendingProbe ∧
      (generateProbes callFacts .c [stashingProbe, sendingProbe]).runFrom
        declaredWorkspace = (.ok (), lowered [stashingProbe, sendingProbe]) ∧
      (generateProbes callFacts .c [sendingProbe, stashingProbe]).runFrom
        declaredWorkspace = (.ok (), lowered [sendingProbe, stashingProbe]) ∧
      (lowered [stashingProbe, sendingProbe]).program.structs.map Struct.name =
        ["calls_value_t", "events_value_t"] ∧
      (lowered [sendingProbe, stashingProbe]).program.structs.map Struct.name =
        ["events_value_t", "calls_value_t"] ∧
      (lowered [sendingProbe, stashingProbe]).program.structs.Perm
        (lowered [stashingProbe, sendingProbe]).program.structs := by
  have hw : declaredWorkspace.Reachable callFacts .c := ⟨{}, _, rfl⟩
  have hpq : stashingProbe.Independent sendingProbe := by decide
  have hok : ((generateProbes callFacts .c [stashingProbe, sendingProbe]).runFrom
      declaredWorkspace).1 = .ok () := by decide +kernel
  have hrun : (generateProbes callFacts .c [stashingProbe, sendingProbe]).runFrom
      declaredWorkspace = (.ok (), lowered [stashingProbe, sendingProbe]) := by
    rw [lowered, ← hok]
  obtain ⟨v, -, -, hv, -, -, -, -, hperm⟩ := independent_probes_commute hw hpq hrun
  have heq : lowered [sendingProbe, stashingProbe] = v := congrArg Prod.snd hv
  rw [← heq] at hv hperm
  refine ⟨hw, hpq, hrun, hv, ?_, ?_, hperm⟩
  · decide +kernel
  · decide +kernel

end Workspace

end ProbeLowering
