import ProbeLowering.Proofs.UniqueNames

/-!
# Layouts of the records of a probe

A record variable says for each of its fields which variable it is filled from.
With the scalar types of these variables this gives the layout that the probe
writes the record with.  The layouts of a probe do not change when more
variables follow (`layouts_of_prefix`), and the layouts that stashes and outputs
compute from the symbol table are the ones that the variables of the probe give
(`fields?_of_schemaFields`).
-/

namespace ProbeLowering

open DebugInfo

namespace Physical

def Variable.struct? : Variable → Option StructVariable
  | .struct v => some v
  | _ => none

namespace Probe

def records (probe : Probe) : List StructVariable :=
  probe.vars.filterMap Variable.struct?

def scalarType? (probe : Probe) (name : String) : Option ScalarType :=
  (probe.findVar? name).bind Variable.scalarType?

def fields? (probe : Probe) : List FieldAssignment → Option (List StructField)
  | [] => some []
  | assignment :: rest => do
      let type ← probe.scalarType? assignment.variableName
      let fields ← probe.fields? rest
      pure (⟨assignment.fieldName, type⟩ :: fields)

/-- The layout that the probe writes the record `v` with. -/
def layout? (probe : Probe) (v : StructVariable) : Option Struct :=
  (probe.fields? v.assignments).map fun fields => ⟨v.structType, fields⟩

def layouts (probe : Probe) : List Struct :=
  probe.records.filterMap probe.layout?

def Closed (probe : Probe) : Prop :=
  ∀ v ∈ probe.records, ∃ s, probe.layout? v = some s

end Probe

def Program.layouts (program : Program) : List Struct :=
  program.probes.flatMap Probe.layouts

namespace Probe

variable {probe next : Probe} {v : StructVariable} {s : Struct}

theorem mem_records : v ∈ probe.records ↔ .struct v ∈ probe.vars := by
  unfold records
  rw [List.mem_filterMap]
  constructor
  · rintro ⟨x, hx, hv⟩
    cases x <;> simp_all [Variable.struct?]
  · intro hv
    exact ⟨_, hv, rfl⟩

theorem fields?_cons_eq_some {assignment : FieldAssignment}
    {rest : List FieldAssignment} {fields : List StructField} :
    probe.fields? (assignment :: rest) = some fields ↔
      ∃ type tail, probe.scalarType? assignment.variableName = some type ∧
        probe.fields? rest = some tail ∧
        fields = ⟨assignment.fieldName, type⟩ :: tail := by
  simp only [fields?, Option.bind_eq_bind, Option.bind_eq_some_iff, Option.pure_def,
    Option.some.injEq]
  constructor
  · rintro ⟨type, htype, tail, htail, rfl⟩
    exact ⟨type, tail, htype, htail, rfl⟩
  · rintro ⟨type, tail, htype, htail, rfl⟩
    exact ⟨type, htype, tail, htail, rfl⟩

theorem getElem?_of_fields? {assignments : List FieldAssignment}
    {fields : List StructField} (h : probe.fields? assignments = some fields) {j : Nat}
    {field : StructField} (hfield : fields[j]? = some field) :
    ∃ variableName, assignments[j]? = some ⟨field.name, variableName⟩ ∧
      probe.scalarType? variableName = some field.type := by
  induction assignments generalizing fields j with
  | nil =>
      cases h
      simp at hfield
  | cons assignment rest ih =>
      obtain ⟨type, tail, htype, htail, rfl⟩ := fields?_cons_eq_some.mp h
      cases j with
      | zero =>
          cases hfield
          exact ⟨assignment.variableName, rfl, htype⟩
      | succ j => exact ih htail (by simpa using hfield)

theorem length_of_fields? {assignments : List FieldAssignment}
    {fields : List StructField} (h : probe.fields? assignments = some fields) :
    fields.length = assignments.length := by
  induction assignments generalizing fields with
  | nil =>
      cases h
      rfl
  | cons assignment rest ih =>
      obtain ⟨type, tail, -, htail, rfl⟩ := fields?_cons_eq_some.mp h
      simp [ih htail]

theorem name_of_layout? (h : probe.layout? v = some s) : s.name = v.structType := by
  obtain ⟨fields, -, rfl⟩ := Option.map_eq_some_iff.mp h
  rfl

theorem fields_of_layout? (h : probe.layout? v = some s) :
    probe.fields? v.assignments = some s.fields := by
  obtain ⟨fields, hfields, rfl⟩ := Option.map_eq_some_iff.mp h
  exact hfields

section Prefix

variable (h : probe.vars <+: next.vars)

include h

theorem scalarType?_of_prefix {name : String} {type : ScalarType}
    (htype : probe.scalarType? name = some type) :
    next.scalarType? name = some type := by
  obtain ⟨x, hx, hxtype⟩ := Option.bind_eq_some_iff.mp htype
  exact Option.bind_eq_some_iff.mpr ⟨x, List.IsPrefix.find?_eq_some h hx, hxtype⟩

theorem fields?_of_prefix {assignments : List FieldAssignment}
    {fields : List StructField} (hfields : probe.fields? assignments = some fields) :
    next.fields? assignments = some fields := by
  induction assignments generalizing fields with
  | nil => exact hfields
  | cons assignment rest ih =>
      obtain ⟨type, tail, htype, htail, rfl⟩ := fields?_cons_eq_some.mp hfields
      exact fields?_cons_eq_some.mpr
        ⟨type, tail, scalarType?_of_prefix h htype, ih htail, rfl⟩

theorem layout?_of_prefix (hs : probe.layout? v = some s) :
    next.layout? v = some s := by
  obtain ⟨fields, hfields, rfl⟩ := Option.map_eq_some_iff.mp hs
  exact Option.map_eq_some_iff.mpr ⟨fields, fields?_of_prefix h hfields, rfl⟩

theorem layouts_of_prefix (hclosed : probe.Closed) {added : List StructVariable}
    (hrecords : next.records = probe.records ++ added) :
    next.layouts = probe.layouts ++ added.filterMap next.layout? := by
  have hsame : probe.records.filterMap next.layout? =
      probe.records.filterMap probe.layout? := by
    refine List.filterMap_congr fun v hv => ?_
    obtain ⟨s, hs⟩ := hclosed v hv
    rw [hs, layout?_of_prefix h hs]
  rw [layouts, hrecords, List.filterMap_append, hsame, layouts]

end Prefix

end Probe

end Physical

namespace Scope.Consistent

variable {scope : Scope} (h : scope.Consistent)

include h

theorem scalarType?_of_mem {name : String} {type : ScalarType}
    (hmem : (name, .scalar type) ∈ scope.symbols.entries) :
    scope.probe.scalarType? name = some type := by
  obtain ⟨v, hv, hname, hsymbol⟩ := h.mem_entries_iff.mp hmem
  refine Option.bind_eq_some_iff.mpr
    ⟨v, (Physical.Probe.findVar?_eq_some_iff h.nodup).mpr ⟨hv, hname⟩, ?_⟩
  unfold symbolOf at hsymbol
  cases htype : v.scalarType? <;> simp_all

theorem fields?_of_schemaFields {owner : String} {columns : List (String × String)}
    {fields : List Physical.StructField}
    (hfields : schemaFields scope.symbols owner columns = .ok fields) :
    scope.probe.fields? (columns.map fun (field, source) => ⟨field, source⟩) =
      some fields := by
  induction columns generalizing fields with
  | nil =>
      cases hfields
      rfl
  | cons column rest ih =>
      obtain ⟨field, source⟩ := column
      unfold schemaFields at hfields
      split at hfields
      next => contradiction
      next type htype =>
        split at hfields
        next => contradiction
        next tail htail =>
          cases hfields
          have hsource := h.scalarType?_of_mem (SymbolTable.requireScalar_ok.mp htype)
          exact Physical.Probe.fields?_cons_eq_some.mpr
            ⟨type, tail, hsource, ih htail, rfl⟩

end Scope.Consistent

theorem zip_sources_of_schemaFields {symbols : SymbolTable} {owner : String}
    {columns : List (String × String)} {fields : List Physical.StructField}
    (h : schemaFields symbols owner columns = .ok fields) :
    ((columns.map Prod.snd).zip fields).map
        (fun (source, field) => Physical.FieldAssignment.mk field.name source) =
      columns.map fun (field, source) => ⟨field, source⟩ := by
  induction columns generalizing fields with
  | nil => rfl
  | cons column rest ih =>
      unfold schemaFields at h
      split at h
      next => contradiction
      next type htype =>
        split at h
        next => contradiction
        next tail htail =>
          cases h
          simpa using ih htail

end ProbeLowering
