import ProbeLowering.Proofs.EntryTypes
import ProbeLowering.Proofs.StashKeys
import ProbeLowering.Proofs.TypedDeclarations

/-!
# States that lowering reaches

Whatever a run has come to, its workspace still has the maps and outputs that were declared,
and a name refers to the last of them (`Reaches.declared`).  The scope of the probe has its
special variables before everything else (`Reaches.special_subset`), so that the implicit
columns of events are there for every event (`Reaches.exists_column`).
-/

namespace ProbeLowering

open DebugInfo
open Physical (Variable PerfBuffer)
open Logical (RecordAction Part)

/-- Each name of an entry refers to the last entry of this name. -/
structure Positions.Resolve (positions : Positions) (names : List String) : Prop where
  belongs : positions.Locate (fun name entry => entry = name) names
  latest : positions.Latest names
  complete : ∀ name ∈ names, ∃ i, positions.lookup name = some i

namespace Positions.Resolve

variable {positions : Positions} {names : List String}

theorem nil : Resolve [] [] :=
  ⟨by rintro _ _ ⟨⟩, by rintro _ _ ⟨⟩, by rintro _ ⟨⟩⟩

theorem declare (h : positions.Resolve names) (name : String) :
    Resolve ((name, names.length) :: positions) (names ++ [name]) := by
  refine ⟨h.belongs.declare rfl, h.latest.declare name, fun other hother => ?_⟩
  rw [List.lookup_cons]
  split
  next => exact ⟨_, rfl⟩
  next hne =>
    have hne : other ≠ name := by simpa using hne
    exact h.complete other (by simpa [hne] using hother)

variable {α : Type} {key : α → String} {entries : List α}

theorem getElem?_iff (h : positions.Resolve (entries.map key)) {name : String} {x : α} :
    (∃ i, positions.lookup name = some i ∧ entries[i]? = some x) ↔
      entries.findRev? (fun a => key a == name) = some x := by
  have hlast : ∀ {i y}, positions.lookup name = some i → entries[i]? = some y →
      entries.findRev? (fun a => key a == name) = some y := by
    intro i y hi hy
    have hname : key y = name := h.belongs.belongs hi (by simp [hy])
    subst hname
    exact findRev?_of_drop key hy (h.latest _ i hi)
  constructor
  · rintro ⟨i, hi, hx⟩
    exact hlast hi hx
  · intro hx
    have hmem : name ∈ entries.map key :=
      key_of_findRev? hx ▸ List.mem_map_of_mem (mem_of_findRev? hx)
    obtain ⟨i, hi⟩ := h.complete name hmem
    obtain ⟨_, hentry, -⟩ := h.belongs name i hi
    obtain ⟨y, hy, -⟩ := by simpa using hentry
    have hsame : x = y := Option.some.inj (hx.symm.trans (hlast hi hy))
    exact ⟨i, hi, hsame ▸ hy⟩

end Positions.Resolve

namespace Workspace

variable {w : Workspace} {name : String}

structure Resolves (w : Workspace) : Prop where
  maps : w.registry.maps.Resolve (w.program.maps.map MapDecl.name)
  outputs : w.registry.outputs.Resolve (w.program.outputs.map PerfBuffer.name)

namespace Resolves

theorem start (program : Physical.Program) (hmaps : program.maps = [])
    (houtputs : program.outputs = []) : ({ program } : Workspace).Resolves :=
  ⟨by simpa [hmaps] using .nil, by simpa [houtputs] using .nil⟩

variable (h : w.Resolves)

include h

theorem declareMap (map : MapDecl) : (w.declareMap map).Resolves :=
  ⟨by simpa [Workspace.declareMap] using h.maps.declare map.name, h.outputs⟩

theorem declareOutput (output : Logical.Output) : (w.declareOutput output).Resolves :=
  ⟨h.maps, by simpa [Workspace.declareOutput] using h.outputs.declare output.name⟩

theorem map?_iff {decl : MapDecl} :
    (∃ index, w.map? name = .ok (index, decl)) ↔
      w.program.maps.findRev? (·.name == name) = some decl := by
  simp only [map?_ok]
  exact h.maps.getElem?_iff

theorem output?_iff {buffer : PerfBuffer} :
    (∃ index, w.output? name = .ok (index, buffer)) ↔
      w.program.outputs.findRev? (·.name == name) = some buffer := by
  simp only [output?_ok]
  exact h.outputs.getElem?_iff

theorem sameDeclarations {v : Workspace} (hsame : w.SameDeclarations v) : v.Resolves := by
  refine ⟨?_, ?_⟩
  · rw [hsame.mapPositions, hsame.mapNames]
    exact h.maps
  · rw [hsame.outputPositions, hsame.outputs]
    exact h.outputs

end Resolves

theorem resolves_ofProgram (target : Target) (input : Logical.Program) :
    (ofProgram target input).Resolves := by
  unfold ofProgram declareOutputs declareMaps
  refine List.foldlRecOn input.outputs _ ?_ fun w hw output _ => hw.declareOutput output
  exact List.foldlRecOn input.maps _ (Resolves.start _ rfl rfl)
    fun w hw map _ => hw.declareMap map

theorem StructsIndexed.apply (h : w.StructsIndexed) (write : RecordWrite) :
    (write.apply w).StructsIndexed := by
  have hregistered := h.registerStruct write.record
  cases write with
  | map index decl record =>
      exact (sameRecords_writeMap index decl record w).sameStructs.structsIndexed hregistered
  | output index buffer event =>
      exact (sameRecords_writeBuffer index buffer event w).sameStructs.structsIndexed
        hregistered

theorem setOutput_of_output? {index : Nat} {buffer : PerfBuffer}
    (h : w.output? name = .ok (index, buffer)) : w.setOutput index buffer = w := by
  obtain ⟨-, hbuffer⟩ := output?_ok.mp h
  obtain ⟨hlt, rfl⟩ := List.getElem?_eq_some_iff.mp hbuffer
  simp [setOutput]

/-- The workspace has the maps and outputs of `input`, and everything in it can be found. -/
structure Declared (input : Logical.Program) (w : Workspace) : Prop where
  located : w.Located
  indexed : w.StructsIndexed
  resolves : w.Resolves
  mapNames : w.program.maps.map MapDecl.name = input.maps.map MapDecl.name
  outputs : w.program.outputs = input.outputs.map (·.buffer)

section Declared

variable {input : Logical.Program}

theorem declared_ofProgram (target : Target) (input : Logical.Program) :
    (ofProgram target input).Declared input := by
  refine ⟨located_ofProgram target input, ?_, resolves_ofProgram target input, ?_, ?_⟩
  · exact (recorded_ofProgram target input).indexed
  · rw [program_ofProgram]
  · rw [program_ofProgram]

namespace Declared

variable (h : w.Declared input)

include h

theorem apply {action : RecordAction} {write : RecordWrite} (hfits : write.Fits w action) :
    (write.apply w).Declared input := by
  have hsame := h.located.sameDeclarations_apply hfits
  exact ⟨h.located.apply hfits, h.indexed.apply write, h.resolves.sameDeclarations hsame,
    hsame.mapNames.trans h.mapNames, hsame.outputs.trans h.outputs⟩

theorem addProbe (probe : Physical.Probe) : (w.addProbe probe).Declared input :=
  ⟨h.located.addProbe probe, h.indexed, ⟨h.resolves.maps, h.resolves.outputs⟩, h.mapNames,
    h.outputs⟩

theorem findStruct?_apply (write : RecordWrite) :
    (write.apply w).program.findStruct? write.record.name = some write.record := by
  rw [← (h.indexed.apply write).struct?_ok_iff, h.located.structs.struct?_apply, if_pos rfl]

theorem exists_map?_iff :
    (∃ decl, w.program.maps.findRev? (·.name == name) = some decl) ↔
      name ∈ input.maps.map MapDecl.name := by
  rw [← h.mapNames]
  constructor
  · rintro ⟨decl, hdecl⟩
    exact key_of_findRev? hdecl ▸ List.mem_map_of_mem (mem_of_findRev? hdecl)
  · intro hmem
    obtain ⟨decl, hdecl, hname⟩ := List.mem_map.mp hmem
    obtain ⟨last, -, -, hlast⟩ := exists_findRev?_append [] MapDecl.name hdecl hname
    exact ⟨last, hlast⟩

theorem output?_iff {buffer : PerfBuffer} :
    (∃ index, w.output? name = .ok (index, buffer)) ↔
      ∃ output, input.outputs.findRev? (·.name == name) = some output ∧
        output.buffer = buffer := by
  rw [h.resolves.output?_iff, h.outputs, findRev?_map, Option.map_eq_some_iff]
  rfl

end Declared

end Declared

end Workspace

/-! ## Parts of a probe -/

theorem Logical.Part.steps_subset_parts {probe : Logical.Probe} {done : List Part}
    (h : done ⊆ probe.parts) (setting : Setting) :
    done.map (step setting) ⊆ Build.parts setting probe := by
  rw [← Build.map_step_parts]
  exact List.map_subset _ h

theorem Build.ensures_parts {I : Workspace → Prop}
    (hI : ∀ w action (write : RecordWrite), write.Fits w action → I w → I (write.apply w))
    {setting : Setting} {probe : Logical.Probe} {part : Step Build Unit}
    (h : part ∈ parts setting probe) :
    Step.Ensures (fun b => I b.workspace) part fun _ b => I b.workspace := by
  rw [← Plan.map_step_ofProbe] at h
  obtain ⟨plan, hplan, rfl⟩ := List.mem_map.mp h
  exact Plan.ensures_step hI hplan

theorem Scope.exists_special_of_column {language : Language} {column : String}
    (h : column ∈ implicitColumns language) (tracepoint : TracePoint) :
    ∃ type source, .scalar ⟨column, type, source⟩ ∈ specialVariables language tracepoint := by
  obtain ⟨helper, hhelper, rfl⟩ := List.mem_map.mp h
  refine ⟨helper.scalarType, .builtin helper, ?_⟩
  cases language <;> cases helper <;>
    simp_all [specialVariables, Builtin.scalarType]

namespace Workspace

section Run

variable {facts : Facts} {target : Target} {input : Logical.Program} {setting : Setting}
  {lowered : List Part} {part : Part} {b : Build}

namespace Reaches

/-- What fitting writes and new probes keep holds in every state that is reached. -/
theorem kept {I : Workspace → Prop}
    (hI : ∀ w action (write : RecordWrite), write.Fits w action → I w → I (write.apply w))
    (hprobe : ∀ w probe, I w → I (w.addProbe probe)) (hstart : I (ofProgram target input))
    (h : Reaches facts target input lowered setting part b) : I b.workspace := by
  obtain ⟨earlier, probe, later, w, done, rest, -, hearlier, -, hparts, hdone, -⟩ := h
  have hw : I w := kept_of_run hI hprobe hstart hearlier
  have hsubset : done ⊆ probe.parts := hparts ▸ List.subset_append_left done (part :: rest)
  have hsteps : ∀ step ∈ done.map (Part.step setting),
      Step.Ensures (fun b => I b.workspace) step fun _ b => I b.workspace :=
    fun step hstep => Build.ensures_parts hI (Part.steps_subset_parts hsubset setting hstep)
  exact Step.Ensures.sequence hsteps _ _ _ hw hdone

theorem declared (h : Reaches facts target input lowered setting part b) :
    b.workspace.Declared input :=
  h.kept (fun _ _ _ hfits hw => hw.apply hfits) (fun _ probe hw => hw.addProbe probe)
    (declared_ofProgram target input)

theorem language_eq (h : Reaches facts target input lowered setting part b) :
    setting.language = input.language := by
  obtain ⟨_, _, _, _, _, _, -, -, hsetting, -⟩ := h
  exact (Setting.ofSymbol_ok.mp hsetting).2.1

theorem consistent (h : Reaches facts target input lowered setting part b) :
    b.scope.Consistent := by
  obtain ⟨_, probe, _, _, done, rest, -, -, -, hparts, hdone, -⟩ := h
  have hsubset : done ⊆ probe.parts := hparts ▸ List.subset_append_left done (part :: rest)
  have hextends := Build.extends_of_run (Part.steps_subset_parts hsubset setting) hdone
  exact Scope.Extends.consistent hextends (Scope.consistent_start _ _)

theorem special_subset (h : Reaches facts target input lowered setting part b)
    (hpart : part ≠ .special) :
    ∃ tracepoint, Scope.specialVariables input.language tracepoint ⊆ b.scope.probe.vars := by
  rw [← h.language_eq]
  obtain ⟨_, probe, _, _, done, rest, -, -, -, hparts, hdone, -⟩ := h
  cases done with
  | nil => exact absurd (List.cons.inj hparts).1.symm hpart
  | cons first done =>
      obtain ⟨rfl, -⟩ := List.cons.inj hparts
      obtain ⟨c, hfirst, hdone⟩ := Step.runFrom_sequence_cons_ok.mp hdone
      have hspecial := Scope.probe_of_addSpecialVariables (Build.runFrom_onScope_ok.mp hfirst).1
      have hsubset : done ⊆ probe.parts := by
        rw [hparts]
        exact fun part hmem => by simp [hmem]
      have hextends := Build.extends_of_run (Part.steps_subset_parts hsubset setting) hdone
      refine ⟨probe.tracepoint,
        List.Subset.trans ?_ (Scope.Extends.vars_prefix hextends).subset⟩
      rw [hspecial]
      exact List.subset_append_right _ _

theorem exists_column (h : Reaches facts target input lowered setting part b)
    (hpart : part ≠ .special) {column : String}
    (hcolumn : column ∈ implicitColumns input.language) :
    ∃ type, b.scope.symbols.scalarType? column = some type := by
  obtain ⟨tracepoint, hspecial⟩ := h.special_subset hpart
  obtain ⟨type, source, hmem⟩ := Scope.exists_special_of_column hcolumn tracepoint
  refine ⟨type, SymbolTable.scalarType?_eq_some_iff.mpr ?_⟩
  exact h.consistent.mem_entries_iff.mpr ⟨_, hspecial hmem, rfl, rfl⟩

end Reaches

/-- A run that succeeds comes to each part of each probe and gets over it. -/
theorem exists_reaches {u : Workspace} {earlier later : List Logical.Probe}
    {probe : Logical.Probe} {done rest : List Part}
    (h : (generateProbes facts input.language input.probes).runFrom (ofProgram target input) =
      (.ok (), u))
    (hprobes : input.probes = earlier ++ probe :: later)
    (hparts : probe.parts = done ++ part :: rest) :
    ∃ setting b c, Reaches facts target input (earlier.flatMap Logical.Probe.parts ++ done)
      setting part b ∧ (part.step setting).runFrom b = (.ok (), c) := by
  rw [hprobes] at h
  obtain ⟨w, physical, v, -, hearlier, hlowered, -⟩ := exists_lowered_at h
  obtain ⟨setting, b, hsetting, hrun, -⟩ := lowerProbe_ok.mp hlowered
  rw [← Build.map_step_parts, hparts, List.map_append] at hrun
  obtain ⟨c, hdone, hrest⟩ := Step.runFrom_sequence_append_ok.mp hrun
  obtain ⟨d, hpart, -⟩ := Step.runFrom_sequence_cons_ok.mp hrest
  exact ⟨setting, c, d, ⟨earlier, probe, later, w, done, rest, hprobes, hearlier, hsetting,
    hparts, hdone, rfl⟩, hpart⟩

end Run

end Workspace

end ProbeLowering
