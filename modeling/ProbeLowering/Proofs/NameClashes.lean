import Mathlib.Data.List.Pairwise
import ProbeLowering.Proofs.AskedNames

/-!
# Clashes of names

Lowering makes up names by putting text behind names of the request, so a request can be
refused for a name although it gives each name once.  If the names that it gives differ
from each other and from the reserved ones, then it is because it gives a name that is made
up as well, or because the names of two pointers are the same, which they are only if the
name of one expression goes on with a marker behind the name of the other
(`clashes_of_lowerProbe`).
-/

namespace ProbeLowering

open DebugInfo
open Logical (RecordAction)

def Continues (shorter longer : String) : Prop :=
  ∃ rest, longer = shorter ++ "_D" ++ rest ∨ longer = shorter ++ "_X_" ++ rest

theorem Continues.ne {shorter longer : String} (h : Continues shorter longer) :
    shorter ≠ longer := by
  rintro rfl
  rcases h with ⟨rest, hlonger | hlonger⟩ <;>
    simpa [String.append_assoc] using congrArg (·.toList.length) hlonger

def pathText (steps : List PathStep) : List Char :=
  steps.flatMap fun step => step.display.toList

@[simp] theorem pathText_field (name : String) (steps : List PathStep) :
    pathText (.field name :: steps) = '_' :: 'D' :: '_' :: (name.toList ++ pathText steps) := by
  simp [pathText, PathStep.display]

@[simp] theorem pathText_deref (steps : List PathStep) :
    pathText (.deref :: steps) = '_' :: 'X' :: '_' :: pathText steps := by
  simp [pathText, PathStep.display]

theorem toList_pointerName (id : String) (steps : List PathStep) :
    (pointerName id steps).toList = id.toList ++ pathText (steps ++ [.deref]) := by
  simp [pointerName, AccessPath.display, pathText, String.toList_join, List.flatMap_map]

theorem exists_marker {steps : List PathStep} (h : steps ≠ []) :
    ∃ c rest, pathText steps = '_' :: c :: '_' :: rest ∧ c ≠ '_' := by
  rcases steps with _ | ⟨_ | _, steps⟩
  · exact absurd rfl h
  · exact ⟨'D', _, pathText_field _ steps, by decide⟩
  · exact ⟨'X', _, pathText_deref steps, by decide⟩

/-- A path that ends with another one starts with a marker, whole unless a field overlaps. -/
theorem marker_of_append {steps later : List PathStep} {between : List Char}
    (hbetween : between ≠ []) (hlater : later ≠ [])
    (h : pathText steps = between ++ pathText later) :
    "_D".toList <+: between ∨ "_X_".toList <+: between := by
  obtain ⟨c, rest, hmarker, hc⟩ := exists_marker hlater
  rw [hmarker] at h
  rcases steps with _ | ⟨name | _, steps⟩
  · simp [pathText] at h
  · rw [pathText_field] at h
    rcases between with _ | ⟨a, _ | ⟨b, between⟩⟩
    · exact absurd rfl hbetween
    · simp at h
    · obtain ⟨rfl, rfl, -⟩ : '_' = a ∧ 'D' = b ∧ _ := by simpa using h
      exact .inl (by simp)
  · rw [pathText_deref] at h
    rcases between with _ | ⟨a, _ | ⟨b, _ | ⟨d, between⟩⟩⟩
    · exact absurd rfl hbetween
    · simp at h
    · -- The second marker would start with the last character of the first.
      obtain ⟨-, -, hafter⟩ : '_' = a ∧ 'X' = b ∧ pathText steps = c :: '_' :: rest := by
        simpa using h
      by_cases hnil : steps = []
      · simp [hnil, pathText] at hafter
      · obtain ⟨_, _, hagain, -⟩ := exists_marker hnil
        rw [hagain] at hafter
        exact absurd (List.cons.inj hafter).1.symm hc
    · obtain ⟨rfl, rfl, rfl, -⟩ : '_' = a ∧ 'X' = b ∧ '_' = d ∧ _ := by simpa using h
      exact .inr (by simp)

theorem continues_of_pointerName {id id' : String} {steps steps' : List PathStep}
    (h : pointerName id steps = pointerName id' steps') (hne : id ≠ id') :
    Continues id id' ∨ Continues id' id := by
  have hcontinues : ∀ {shorter longer : String} {steps later : List PathStep},
      shorter ≠ longer → later ≠ [] →
      (∃ between, longer.toList = shorter.toList ++ between ∧
        pathText steps = between ++ pathText later) → Continues shorter longer := by
    rintro shorter longer steps later hne hlater ⟨between, hlonger, htext⟩
    have hbetween : between ≠ [] := by
      rintro rfl
      exact hne (String.toList_injective (by simpa using hlonger.symm))
    rcases marker_of_append hbetween hlater htext with ⟨rest, rfl⟩ | ⟨rest, rfl⟩
    · exact ⟨String.ofList rest, .inl (String.toList_injective (by simpa using hlonger))⟩
    · exact ⟨String.ofList rest, .inr (String.toList_injective (by simpa using hlonger))⟩
  have htext := congrArg String.toList h
  rw [toList_pointerName, toList_pointerName, List.append_eq_append_iff] at htext
  rcases htext with hlonger | hlonger
  · exact .inl (hcontinues hne (by simp) hlonger)
  · exact .inr (hcontinues hne.symm (by simp) hlonger)

theorem append_ending_inj {stem stem' ending ending' : String}
    (hending : ending ∈ ["_X_", "_ptr", "_value"])
    (hending' : ending' ∈ ["_X_", "_ptr", "_value"]) (h : stem ++ ending = stem' ++ ending') :
    stem = stem' ∧ ending = ending' := by
  have hlast : ∀ ending ∈ ["_X_", "_ptr", "_value"], ∀ stem : String,
      (stem ++ ending).toList.getLast? = ending.toList.getLast? := by
    simp [List.getLast?_append]
  have hdistinct : ∀ ending ∈ ["_X_", "_ptr", "_value"],
      ∀ ending' ∈ ["_X_", "_ptr", "_value"],
        ending.toList.getLast? = ending'.toList.getLast? → ending = ending' := by decide
  obtain rfl : ending = ending' := by
    refine hdistinct ending hending ending' hending' ?_
    rw [← hlast ending hending stem, h, hlast ending' hending' stem']
  refine ⟨String.toList_injective ?_, rfl⟩
  have htext := congrArg String.toList h
  simpa using htext

theorem Stop.root_of_mem_reached {facts : Facts} {stop next : Stop} {fields : List String}
    (h : next ∈ stop.reached facts fields) : next.path.root = stop.path.root := by
  induction fields generalizing stop with
  | nil => cases h
  | cons field rest ih =>
      cases hmember : facts.member stop.typeName field with
      | error e =>
          rw [reached, hmember] at h
          cases h
      | ok info =>
          have henter : (stop.enter field info).path.root = stop.path.root := by
            rw [enter, exit]
            split <;> rfl
          rw [reached_cons hmember, List.mem_cons] at h
          rcases h with rfl | h
          · exact henter
          · exact (ih h).trans henter

theorem Route.exists_pointerName {facts : Facts} {route : Route} {name : String}
    (h : name ∈ route.pointers facts) : ∃ steps, name = pointerName route.id steps := by
  obtain ⟨stop, hstop, rfl⟩ := List.mem_map.mp h
  obtain ⟨hmem, hpointer⟩ := List.mem_filter.mp hstop
  have hroot : stop.path.root = route.id := by
    rcases List.mem_cons.mp hmem with rfl | hmem
    · rfl
    · exact Stop.root_of_mem_reached hmem
  refine ⟨stop.path.steps, ?_⟩
  rw [Stop.exit, if_pos hpointer, pointerName, ← hroot]
  rfl

namespace Logical

namespace Part

variable {setting : Setting} {part : Part} {name : String}

theorem mem_pointers :
    name ∈ part.pointers setting ↔
      ∃ route, part.route? setting = some route ∧ name ∈ route.pointers setting.facts := by
  unfold pointers
  cases part.route? setting <;> simp

theorem mem_made :
    name ∈ part.made setting ↔ name ∈ part.pointers setting ∨
      ∃ owner ending, (owner, ending) ∈ part.entries ∧ owner ++ ending = name := by
  simp [made]

theorem ending_mem {owner ending : String} (h : (owner, ending) ∈ part.entries) :
    ending ∈ ["_X_", "_ptr", "_value"] := by
  cases part <;> simp [entries] at h <;> simp [h]

theorem exists_of_mem_pointers (h : name ∈ part.pointers setting) :
    ∃ route steps, part.route? setting = some route ∧ name = pointerName route.id steps := by
  obtain ⟨route, hroute, hname⟩ := mem_pointers.mp h
  obtain ⟨steps, heq⟩ := route.exists_pointerName hname
  exact ⟨route, steps, hroute, heq⟩

theorem declared_of_route? {route : Route} (h : part.route? setting = some route) :
    part.declared = [route.id] := by
  cases part <;> simp [route?, Option.bind_eq_some_iff] at h
  · obtain ⟨_, -, _, -, rfl⟩ := h
    rfl
  · obtain ⟨_, -, _, -, _, -, rfl⟩ := h
    rfl

theorem nodup_made (setting : Setting) (part : Part) : (part.made setting).Nodup := by
  have hpointers : (part.pointers setting).Nodup := by
    unfold pointers
    cases part.route? setting with
    | none => exact .nil
    | some route => exact route.nodup_pointers setting.facts
  cases part with
  | read | stash | output => exact List.nodup_singleton _
  | _ => simpa [made, entries] using hpointers

theorem not_mem_reservedNames_of_made (h : name ∈ part.made setting) :
    name ∉ reservedNames := by
  rcases mem_made.mp h with hpointer | ⟨owner, ending, hmem, rfl⟩
  · obtain ⟨route, steps, -, rfl⟩ := exists_of_mem_pointers hpointer
    exact pointerName_not_mem_reservedNames _ steps
  · refine append_not_mem_reservedNames ?_
    cases part <;> simp [entries] at hmem <;> simp [hmem]

end Part

/--
The request gives the name to a variable, and lowering makes it up for one as well; or two
expressions lead across pointers of this name, and the name of one of them continues the
other.
-/
def Probe.Clashes (input : Probe) (setting : Setting) (name : String) : Prop :=
  (name ∈ input.declaredNames ∧ ∃ part ∈ input.parts, name ∈ part.made setting) ∨
    ∃ first ∈ input.parts, ∃ second ∈ input.parts, ∃ route route',
      first.route? setting = some route ∧ second.route? setting = some route' ∧
        name ∈ route.pointers setting.facts ∧ name ∈ route'.pointers setting.facts ∧
        Continues route.id route'.id

theorem Probe.flatMap_declared (input : Probe) :
    input.parts.flatMap Part.declared = input.declaredNames := by
  simp [parts, declaredNames, List.flatMap_map, Part.declared, ← List.map_eq_flatMap]

theorem Probe.flatMap_entries (input : Probe) :
    input.parts.flatMap Part.entries =
      input.mapVals.map (fun value => (value.mapName, "_ptr")) ++
        input.recordActions.map (fun action => (action.owner, "_value")) := by
  have hnone : ∀ {α : Type} (xs : List α),
      xs.flatMap (fun _ => ([] : List (String × String))) = [] := fun xs =>
    List.flatMap_eq_nil_iff.mpr fun _ _ => rfl
  simp [parts, recordActions, List.flatMap_map, Part.entries, Function.comp_def,
    RecordAction.owner, hnone, ← List.map_eq_flatMap]

/-! ## Requests that give each name once -/

/--
The names that the request gives differ from each other and from the reserved ones, and it
has one read of each map and one record for each map and output.
-/
structure Probe.NamesOnce (input : Probe) : Prop where
  declared : input.declaredNames.Nodup
  reserved : ∀ name ∈ input.declaredNames, name ∉ reservedNames
  reads : (input.mapVals.map (·.mapName)).Nodup
  records : (input.recordActions.map (·.owner)).Nodup

section NamesOnce

variable {input : Probe} {setting : Setting} {name : String} {earlier part : Part}
  {before after : List Part}

theorem Probe.NamesOnce.nodup_entries (h : input.NamesOnce) :
    (input.parts.flatMap Part.entries).Nodup := by
  rw [Probe.flatMap_entries, List.nodup_append]
  refine ⟨.of_map Prod.fst ?_, .of_map Prod.fst ?_, ?_⟩
  · simpa [Function.comp_def] using h.reads
  · simpa [Function.comp_def] using h.records
  · simp

theorem Probe.exists_parts_eq (input : Probe) :
    ∃ rest, input.parts = .special :: rest ∧ Part.special ∉ rest := by
  refine ⟨_, rfl, ?_⟩
  simp

theorem Probe.mem_declaredNames_of_part (hpart : part ∈ input.parts) (h : name ∈ part.declared) :
    name ∈ input.declaredNames := by
  rw [← input.flatMap_declared]
  exact List.mem_flatMap_of_mem hpart h

theorem Probe.NamesOnce.not_mem_reservedNames (h : input.NamesOnce) (hpart : part ∈ input.parts)
    (hname : name ∈ part.made setting ++ part.declared) : name ∉ reservedNames := by
  rcases List.mem_append.mp hname with hmade | hgiven
  · exact Part.not_mem_reservedNames_of_made hmade
  · exact h.reserved name (Probe.mem_declaredNames_of_part hpart hgiven)

theorem clashes_of_made (hdeclared : earlier.declared.Disjoint part.declared)
    (hentries : earlier.entries.Disjoint part.entries) (hmem : earlier ∈ input.parts)
    (hmem' : part ∈ input.parts) (h : name ∈ earlier.made setting)
    (h' : name ∈ part.made setting) : input.Clashes setting name := by
  have hpointer : ∀ {part other : Part} {owner ending : String},
      owner ++ ending ∈ part.pointers setting → (owner, ending) ∉ other.entries := by
    intro part other owner ending hname hentry
    obtain ⟨route, steps, -, heq⟩ := Part.exists_of_mem_pointers hname
    rw [pointerName_eq_append] at heq
    obtain ⟨-, rfl⟩ := append_ending_inj (Part.ending_mem hentry) (by simp) heq
    cases other <;> simp [Part.entries] at hentry
  rcases Part.mem_made.mp h with hname | ⟨owner, ending, hentry, rfl⟩
  · rcases Part.mem_made.mp h' with hname' | ⟨owner, ending, hentry, rfl⟩
    · obtain ⟨route, hroute, hname⟩ := Part.mem_pointers.mp hname
      obtain ⟨route', hroute', hname'⟩ := Part.mem_pointers.mp hname'
      have hne : route.id ≠ route'.id := by
        rw [Part.declared_of_route? hroute, Part.declared_of_route? hroute'] at hdeclared
        simpa [eq_comm] using hdeclared
      obtain ⟨steps, heq⟩ := route.exists_pointerName hname
      obtain ⟨steps', heq'⟩ := route'.exists_pointerName hname'
      rcases continues_of_pointerName (heq.symm.trans heq') hne with hcontinues | hcontinues
      · exact .inr ⟨earlier, hmem, part, hmem', route, route', hroute, hroute', hname, hname',
          hcontinues⟩
      · exact .inr ⟨part, hmem', earlier, hmem, route', route, hroute', hroute, hname', hname,
          hcontinues⟩
    · exact absurd hentry (hpointer hname)
  · rcases Part.mem_made.mp h' with hname' | ⟨owner', ending', hentry', heq⟩
    · exact absurd hentry (hpointer hname')
    · obtain ⟨rfl, rfl⟩ := append_ending_inj (Part.ending_mem hentry')
        (Part.ending_mem hentry) heq
      exact absurd hentry' (hentries hentry)

theorem clashes_of_earlier (h : input.NamesOnce) (hparts : input.parts = before ++ part :: after)
    (hearlier : earlier ∈ before) (hname : name ∈ earlier.made setting ++ earlier.declared)
    (hname' : name ∈ part.made setting ++ part.declared) : input.Clashes setting name := by
  have hmem : earlier ∈ input.parts := by simp [hparts, hearlier]
  have hmem' : part ∈ input.parts := by simp [hparts]
  -- The earlier part and the later one stand in every relation that holds along the parts.
  have hrelated : ∀ {R : Part → Part → Prop}, input.parts.Pairwise R → R earlier part := by
    intro R hR
    rw [hparts, List.pairwise_append] at hR
    exact hR.2.2 earlier hearlier part List.mem_cons_self
  have hdeclared := h.declared
  rw [← input.flatMap_declared, List.nodup_flatMap] at hdeclared
  have hdisjoint : earlier.declared.Disjoint part.declared := hrelated hdeclared.2
  have hentries : earlier.entries.Disjoint part.entries :=
    hrelated (List.nodup_flatMap.mp h.nodup_entries).2
  rcases List.mem_append.mp hname with hmade | hgiven
  · rcases List.mem_append.mp hname' with hmade' | hgiven'
    · exact clashes_of_made hdisjoint hentries hmem hmem' hmade hmade'
    · exact .inl ⟨Probe.mem_declaredNames_of_part hmem' hgiven', earlier, hmem, hmade⟩
  · rcases List.mem_append.mp hname' with hmade' | hgiven'
    · exact .inl ⟨Probe.mem_declaredNames_of_part hmem hgiven, part, hmem', hmade'⟩
    · exact absurd hgiven' (hdisjoint hgiven)

/-- A part asks for a name twice only if it is made up for it and given to it as well. -/
theorem clashes_of_twice (h : input.NamesOnce) (hmem : part ∈ input.parts) {given : List String}
    (hasked : given ++ [name] <+: part.made setting ++ part.declared) (hgiven : name ∈ given) :
    input.Clashes setting name := by
  have hdeclared := h.declared
  rw [← input.flatMap_declared, List.nodup_flatMap] at hdeclared
  have htwice : 2 ≤ (part.made setting ++ part.declared).count name := by
    have hcount := hasked.sublist.count_le name
    have hpos := List.count_pos_iff.mpr hgiven
    rw [List.count_append, List.count_singleton_self] at hcount
    omega
  have hmade := List.nodup_iff_count_le_one.mp (part.nodup_made setting) name
  have hnames := List.nodup_iff_count_le_one.mp (hdeclared.1 part hmem) name
  rw [List.count_append] at htwice
  exact .inl ⟨Probe.mem_declaredNames_of_part hmem (List.count_pos_iff.mp (by omega)), part, hmem,
    List.count_pos_iff.mp (by omega)⟩

theorem not_clashes_of_nodup
    (h : (input.parts.flatMap fun part => part.made setting ++ part.declared).Nodup) :
    ¬ input.Clashes setting name := by
  obtain ⟨hparts, hdisjoint⟩ := List.nodup_flatMap.mp h
  have hsame : ∀ {first second : Part}, first ∈ input.parts → second ∈ input.parts →
      name ∈ first.made setting ++ first.declared →
      name ∈ second.made setting ++ second.declared → first = second := by
    intro first second hfirst hsecond hname hname'
    by_contra hne
    have hsymm : Std.Symm (Function.onFun List.Disjoint fun part : Part =>
        part.made setting ++ part.declared) := ⟨fun _ _ => List.disjoint_symm⟩
    exact hdisjoint.forall hfirst hsecond hne hname hname'
  rintro (⟨hdeclared, part, hpart, hmade⟩ |
    ⟨first, hfirst, second, hsecond, route, route', hroute, hroute', hname, hname', hlonger⟩)
  · rw [← input.flatMap_declared, List.mem_flatMap] at hdeclared
    obtain ⟨other, hother, hdeclared⟩ := hdeclared
    obtain rfl := hsame hother hpart (List.mem_append_right _ hdeclared)
      (List.mem_append_left _ hmade)
    exact (List.nodup_append.mp (hparts other hother)).2.2 name hmade name hdeclared rfl
  · have hmade := List.mem_append_left first.declared (Part.mem_made.mpr
      (.inl (Part.mem_pointers.mpr ⟨route, hroute, hname⟩)))
    have hmade' := List.mem_append_left second.declared (Part.mem_made.mpr
      (.inl (Part.mem_pointers.mpr ⟨route', hroute', hname'⟩)))
    obtain rfl := hsame hfirst hsecond hmade hmade'
    obtain rfl := Option.some.inj (hroute.symm.trans hroute')
    exact hlonger.ne rfl

end NamesOnce

end Logical

/-! ## Runs -/

section Runs

variable {setting : Setting} {b c : Build} {name : String}

theorem names_of_run {done : List Logical.Part} (hdone : Logical.Part.special ∉ done)
    (h : (Step.sequence (done.map (Logical.Part.step setting))).runFrom b = (.ok (), c)) :
    c.scope.names =
      b.scope.names ++ done.flatMap fun part => part.made setting ++ part.declared := by
  induction done generalizing b with
  | nil =>
      cases h
      simp
  | cons part done ih =>
      obtain ⟨d, hpart, hrest⟩ := Step.runFrom_sequence_cons_ok.mp h
      rw [List.mem_cons, not_or] at hdone
      obtain ⟨asked, -, hall, hasked⟩ := part.asks_step (Ne.symm hdone.1) setting b _ d hpart
      cases hasked with
      | given heq _ => rw [ih hdone.2 hrest, heq, hall rfl, List.append_assoc, List.flatMap_cons]

theorem taken_of_step {part : Logical.Part} (hpart : part ≠ .special)
    (h : (part.step setting).runFrom b = (.error (.duplicateVariable name), c)) :
    ∃ given, given ++ [name] <+: part.made setting ++ part.declared ∧
      (name ∈ b.scope.names ∨ name ∈ given) := by
  obtain ⟨asked, hprefix, -, hasked⟩ := part.asks_step hpart setting b _ c h
  cases hasked with
  | given _ hpassed => exact absurd rfl (hpassed name)
  | taken given heq hmem =>
      rw [heq, List.mem_append] at hmem
      exact ⟨given, hprefix, hmem⟩

theorem special_of_start {w : Workspace} {symbol : String} {tracepoint : TracePoint}
    {outcome : Except LowerError Unit}
    (h : (Logical.Part.special.step setting).runFrom ⟨w, .start symbol tracepoint⟩ =
      (outcome, c)) :
    outcome = .ok () ∧ ∀ name ∈ c.scope.names, name ∈ reservedNames := by
  obtain ⟨t, hspecial, hnames⟩ := Scope.exists_run_special setting.language symbol tracepoint
  have hrun : (Logical.Part.special.step setting).runFrom ⟨w, .start symbol tracepoint⟩ =
      (.ok (), ⟨w, t⟩) := Build.runFrom_onScope_ok.mpr ⟨hspecial, rfl⟩
  obtain ⟨rfl, rfl⟩ := Prod.mk.inj (hrun.symm.trans h)
  refine ⟨rfl, fun name hname => ?_⟩
  have hreserved : (Scope.specialVariables setting.language tracepoint).map
      Physical.Variable.name ⊆ reservedNames := by
    unfold Scope.specialVariables
    split <;> split <;> decide
  exact hreserved (hnames ▸ hname)

end Runs

/--
A probe that gives each name once is refused for a name only if it clashes: with a name of
the request that lowering makes up as well, or between two pointers of which one belongs to
an expression whose name goes on with a marker behind the name of the other.  Nothing less
would do, since a probe that is lowered has no such clash.
-/
theorem clashes_of_lowerProbe {facts : Facts} {language : Language} {input : Logical.Probe}
    {w v : Workspace} {outcome : Except LowerError Physical.Probe} (hnames : input.NamesOnce)
    (h : w.lowerProbe facts language input = (outcome, v)) :
    (∀ name, outcome = .error (.duplicateVariable name) →
      ∃ setting, Setting.ofSymbol facts language input.tracepoint.symbol = .ok setting ∧
        input.Clashes setting name) ∧
    ∀ probe, outcome = .ok probe →
      ∃ setting, Setting.ofSymbol facts language input.tracepoint.symbol = .ok setting ∧
        ∀ name, ¬ input.Clashes setting name := by
  obtain ⟨rest, hparts, hrest⟩ := input.exists_parts_eq
  constructor
  · rintro name rfl
    rcases Workspace.lowerProbe_error h with ⟨cause, hcause⟩ |
      ⟨setting, before, part, after, b, c, hsetting, hsplit, hrun, hpart, -⟩
    · cases hcause
    refine ⟨setting, hsetting, ?_⟩
    rcases before with _ | ⟨first, before⟩
    · obtain ⟨rfl, -⟩ := List.cons.inj (hparts.symm.trans hsplit)
      cases hrun
      cases (special_of_start hpart).1
    · obtain ⟨rfl, rfl⟩ := List.cons.inj (hparts.symm.trans hsplit)
      obtain ⟨d, hspecial, hbefore⟩ := Step.runFrom_sequence_cons_ok.mp hrun
      rw [List.append_eq, List.mem_append, List.mem_cons, not_or, not_or] at hrest
      obtain ⟨given, hasked, htaken⟩ := taken_of_step (Ne.symm hrest.2.1) hpart
      have hmem : part ∈ input.parts := by simp [hparts]
      have hname := hasked.subset (List.mem_append_right given List.mem_cons_self)
      rcases htaken with htaken | hgiven
      · rw [names_of_run hrest.1 hbefore, List.mem_append, List.mem_flatMap] at htaken
        rcases htaken with hreserved | ⟨earlier, hearlier, hname'⟩
        · exact absurd ((special_of_start hspecial).2 name hreserved)
            (hnames.not_mem_reservedNames hmem hname)
        · exact Logical.clashes_of_earlier hnames hsplit (List.mem_cons_of_mem _ hearlier)
            hname' hname
      · exact Logical.clashes_of_twice hnames hmem hasked hgiven
  · rintro probe rfl
    obtain ⟨setting, b, hsetting, hrun, -⟩ := Workspace.lowerProbe_ok.mp h
    refine ⟨setting, hsetting, fun name => Logical.not_clashes_of_nodup ?_⟩
    rw [← Build.map_step_parts, hparts] at hrun
    obtain ⟨d, hspecial, hbefore⟩ := Step.runFrom_sequence_cons_ok.mp hrun
    have hnodup := b.scope.symbols.nodup
    rw [← Scope.names, names_of_run hrest hbefore] at hnodup
    rw [hparts]
    exact (List.nodup_append.mp hnodup).2.1

def takenEntry : Logical.Probe where
  name := "taken"
  tracepoint := ⟨"main.Serve", .entry⟩
  consts := [⟨"id_X_", .int64, "1"⟩]
  args := [⟨"id", "req.id"⟩]

theorem clashes_takenEntry :
    takenEntry.NamesOnce ∧
      ({} : Workspace).lowerProbe callFacts .go takenEntry =
        (.error (.duplicateVariable "id_X_"), {}) ∧
      ∃ setting, Setting.ofSymbol callFacts .go "main.Serve" = .ok setting ∧
        takenEntry.Clashes setting "id_X_" := by
  have hnames : takenEntry.NamesOnce := ⟨by decide, by decide, by decide, by decide⟩
  have hrefused : ({} : Workspace).lowerProbe callFacts .go takenEntry =
      (.error (.duplicateVariable "id_X_"), {}) := by decide +kernel
  exact ⟨hnames, hrefused, (clashes_of_lowerProbe hnames hrefused).1 _ rfl⟩

def overlappingEntry : Logical.Probe where
  name := "overlapping"
  tracepoint := ⟨"walk", .entry⟩
  args := [⟨"a", "p.next.b"⟩, ⟨"a_X__D_next", "p.b"⟩]

theorem exists_clash :
    takenEntry.NamesOnce ∧
      ({} : Workspace).lowerProbe callFacts .go takenEntry =
        (.error (.duplicateVariable "id_X_"), {}) ∧
      overlappingEntry.NamesOnce ∧
      ({} : Workspace).lowerProbe nodeSetting.facts .c overlappingEntry =
        (.error (.duplicateVariable "a_X__D_next_X_"), {}) :=
  ⟨⟨by decide, by decide, by decide, by decide⟩, by decide +kernel,
    ⟨by decide, by decide, by decide, by decide⟩, by decide +kernel⟩

end ProbeLowering
