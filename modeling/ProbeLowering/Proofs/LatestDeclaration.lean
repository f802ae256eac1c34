import ProbeLowering.Proofs.Correspondence
import ProbeLowering.Proofs.Footprint

/-!
# The latest declaration of a name

Names may be declared several times.  The registry keeps the position of the latest
declaration, so a stash types the last map of its name in the program
(`Workspace.findRev?_of_stash`), whereas a search through the program finds the first.
The two are the same where a name is declared once (`find?_eq_findRev?_of_count`).
-/

namespace ProbeLowering

open DebugInfo
open Logical (RecordAction)

section Entries

variable {α : Type} {key : α → String} {xs : List α} {name : String}

theorem find?_eq_findRev?_of_count (h : (xs.map key).count name = 1) :
    xs.find? (fun a => key a == name) = xs.findRev? fun a => key a == name := by
  rw [List.count_eq_countP, List.countP_map, List.countP_eq_length_filter,
    List.length_eq_one_iff] at h
  obtain ⟨x, hx⟩ := h
  replace hx : xs.filter (fun a => key a == name) = [x] := hx
  rw [List.findRev?_eq_find?_reverse, ← List.head?_filter, ← List.getLast?_filter, hx]
  simp

theorem findRev?_of_drop (key : α → String) {i : Nat} {x : α} (hx : xs[i]? = some x)
    (h : key x ∉ (xs.map key).drop (i + 1)) :
    xs.findRev? (fun a => key a == key x) = some x := by
  obtain ⟨hi, rfl⟩ := List.getElem?_eq_some_iff.mp hx
  have hlater : ∀ later ∈ xs.drop (i + 1), key later = key xs[i] → later = xs[i] := by
    intro later hmem heq
    rw [← List.map_drop, ← heq] at h
    exact absurd (List.mem_map_of_mem hmem) h
  have hlast : (xs.take i ++ [xs[i]]).findRev? (fun a => key a == key xs[i]) =
      some xs[i] := by
    rw [findRev?_concat, if_pos rfl]
  have hsplit : xs.take i ++ [xs[i]] ++ xs.drop (i + 1) = xs := by simp
  have := findRev?_append_of_forall hlater hlast
  rwa [hsplit] at this

end Entries

/-- No entry after the position of a name has this name. -/
def Positions.Latest (positions : Positions) (names : List String) : Prop :=
  ∀ name i, positions.lookup name = some i → name ∉ names.drop (i + 1)

theorem Positions.Latest.declare {positions : Positions} {names : List String}
    (h : positions.Latest names) (name : String) :
    Positions.Latest ((name, names.length) :: positions) (names ++ [name]) := by
  intro other i hi
  rw [List.lookup_cons] at hi
  split at hi
  next =>
    cases hi
    simp
  next hne =>
    have hother : other ≠ name := by simpa using hne
    rw [List.drop_append, List.mem_append]
    rintro (hmem | hmem)
    · exact h other i hi hmem
    · exact hother (List.mem_singleton.mp (List.mem_of_mem_drop hmem))

def MapDecl.stashed (name : String) : MapDecl where
  name
  keyType := some .uint64
  valueStruct := some (structTypeName name)

namespace Workspace

variable {w u : Workspace} {name : String} {action : RecordAction} {write : RecordWrite}

structure MapsLatest (w : Workspace) : Prop where
  located : w.Located
  latest : w.registry.maps.Latest (w.program.maps.map MapDecl.name)

theorem mapsLatest_ofProgram (target : Target) (input : Logical.Program) :
    (ofProgram target input).MapsLatest := by
  refine ⟨located_ofProgram target input, ?_⟩
  unfold ofProgram declareOutputs declareMaps
  refine List.foldlRecOn (motive := fun w : Workspace =>
    w.registry.maps.Latest (w.program.maps.map MapDecl.name)) input.outputs _ ?_
    fun w hw output _ => hw
  refine List.foldlRecOn (motive := fun w : Workspace =>
    w.registry.maps.Latest (w.program.maps.map MapDecl.name)) input.maps _
    (by rintro _ _ ⟨⟩) fun w hw map _ => ?_
  have hdeclared := Positions.Latest.declare hw map.name
  simpa [declareMap] using hdeclared

def Typed (name : String) (w : Workspace) : Prop :=
  ∃ index, w.map? name = .ok (index, .stashed name)

theorem Located.typedMap?_eq (h : w.Located) (hfits : write.Fits w action)
    {entry : Nat × MapDecl} (hentry : write.typedMap? = some entry) :
    entry.2 = .stashed action.owner := by
  cases hfits with
  | @map action index decl record hfound hname =>
      cases hentry
      obtain ⟨hindex, hdecl⟩ := map?_ok.mp hfound
      have hdeclName : decl.name = action.mapName := h.maps.belongs hindex hdecl
      simp [MapDecl.stashed, RecordAction.owner, hdeclName, hname]
  | output => cases hentry

theorem Located.typed_apply (h : w.Located) (hfits : write.Fits w action)
    (hw : w.Typed name) : (write.apply w).Typed name := by
  unfold Typed
  rw [h.map?_apply hfits]
  cases hentry : write.typedMap? with
  | none => exact hw
  | some entry =>
      simp only
      split
      next howner =>
        obtain ⟨index, decl⟩ := entry
        obtain rfl := h.typedMap?_eq hfits hentry
        exact ⟨index, howner ▸ rfl⟩
      next => exact hw

namespace MapsLatest

theorem apply (h : w.MapsLatest) (hfits : write.Fits w action) :
    (write.apply w).MapsLatest := by
  have hsame := h.located.sameDeclarations_apply hfits
  refine ⟨h.located.apply hfits, ?_⟩
  rw [hsame.mapPositions, hsame.mapNames]
  exact h.latest

theorem addProbe (h : w.MapsLatest) (probe : Physical.Probe) :
    (w.addProbe probe).MapsLatest :=
  ⟨h.located.addProbe probe, h.latest⟩

theorem findRev?_of_typed (h : w.MapsLatest) (hw : w.Typed name) :
    w.program.maps.findRev? (·.name == name) = some (.stashed name) := by
  obtain ⟨index, hindex⟩ := hw
  obtain ⟨hposition, hmap⟩ := map?_ok.mp hindex
  exact findRev?_of_drop MapDecl.name hmap (h.latest name index hposition)

end MapsLatest

theorem ensures_stash (action : Logical.StashAction) :
    Step.Ensures (fun b => b.workspace.MapsLatest) (Build.stash action)
      fun _ b => b.workspace.MapsLatest ∧ b.workspace.Typed action.mapName := by
  intro b _ c hb hrun
  obtain ⟨index, decl, record, hrecord, -, hworkspace, -⟩ := Build.stash_ok hrun
  obtain ⟨hentry, hschema⟩ := Build.stashRecord_ok hrecord
  have hfits : RecordWrite.Fits b.workspace (.stash action) (.map index decl record) :=
    .map hentry (name_of_mapValueStruct hschema)
  have happly : c.workspace = (RecordWrite.map index decl record).apply b.workspace :=
    hworkspace
  have htyped : { decl with keyType := some .uint64, valueStruct := some record.name } =
      MapDecl.stashed action.mapName := hb.located.typedMap?_eq hfits rfl
  rw [happly]
  refine ⟨hb.apply hfits, index, ?_⟩
  rw [hb.located.map?_apply hfits, ← htyped]
  exact if_pos rfl

/-- After a run the last map of a name that is stashed to has the types of a stash. -/
theorem findRev?_of_stash {facts : Facts} {target : Target} {input : Logical.Program}
    (h : (generateProbes facts input.language input.probes).runFrom
      (ofProgram target input) = (.ok (), u))
    {probe : Physical.Probe} (hprobe : probe ∈ u.program.probes)
    {action : Physical.StashAction} (haction : action ∈ probe.stashes) :
    u.program.maps.findRev? (·.name == action.mapName) = some (.stashed action.mapName) := by
  obtain ⟨before, after, hsplit⟩ := List.append_of_mem hprobe
  obtain ⟨earlier, logical, later, w, v, -, hearlier, -, hlowered, hlater⟩ :=
    exists_lowered_of_split h (by simp) hsplit
  rw [(mirrors_of_lowerProbe hlowered).stashes] at haction
  obtain ⟨stash, hstash, rfl⟩ := List.mem_map.mp haction
  have hlatest : ∀ w action (write : RecordWrite), write.Fits w action → w.MapsLatest →
      (write.apply w).MapsLatest := fun _ _ _ hfits hw => hw.apply hfits
  have htyped : ∀ w action (write : RecordWrite), write.Fits w action →
      w.MapsLatest ∧ w.Typed stash.mapName →
      (write.apply w).MapsLatest ∧ (write.apply w).Typed stash.mapName :=
    fun _ _ _ hfits hw => ⟨hw.1.apply hfits, hw.1.located.typed_apply hfits hw.2⟩
  have hadd : ∀ (w : Workspace) probe, w.MapsLatest ∧ w.Typed stash.mapName →
      (w.addProbe probe).MapsLatest ∧ (w.addProbe probe).Typed stash.mapName :=
    fun _ probe hw => ⟨hw.1.addProbe probe, hw.2⟩
  have hw : w.MapsLatest := kept_of_run hlatest (fun _ probe hw => hw.addProbe probe)
    (mapsLatest_ofProgram target input) hearlier
  have haction : RecordAction.stash stash ∈ logical.recordActions := by
    simp [Logical.Probe.recordActions, hstash]
  have hv : v.MapsLatest ∧ v.Typed stash.mapName :=
    established_of_lowerProbe hlatest htyped haction (ensures_stash stash) hw hlowered
  have hu : u.MapsLatest ∧ u.Typed stash.mapName :=
    kept_of_run htyped hadd (hadd v probe hv) hlater
  exact hu.1.findRev?_of_typed hu.2

end Workspace

end ProbeLowering
