import Mathlib.Data.List.Nodup
import ProbeLowering.Document.Vocabulary
import ProbeLowering.Number.Word
import ProbeLowering.Proofs.JsonText

/-!
# Documents read back

Every value of the shared vocabulary is decoded from the tree that it is encoded as, and
that tree is readable as text.  The fields of a record and the variants of an enumeration
are told apart by their names alone, so everything rests on names that differ.
-/

namespace ProbeLowering.Json

theorem filter_eq_singleton {α : Type} {key : α → String} {entries : List α}
    (hdistinct : (entries.map key).Nodup) {x : α} (hx : x ∈ entries) :
    entries.filter (key · == key x) = [x] := by
  induction entries with
  | nil => cases hx
  | cons first rest ih =>
      obtain ⟨hfirst, hrest⟩ := List.nodup_cons.mp hdistinct
      rcases List.mem_cons.mp hx with rfl | hx
      · have hnone : rest.filter (key · == key x) = [] := by
          rw [List.filter_eq_nil_iff]
          intro y hy heq
          exact hfirst (List.mem_map.mpr ⟨y, hy, eq_of_beq heq⟩)
        rw [List.filter_cons_of_pos (by simp), hnone]
      · have hne : key first ≠ key x := fun heq =>
          hfirst (heq ▸ List.mem_map_of_mem hx)
        rw [List.filter_cons_of_neg (by simpa using hne)]
        exact ih hrest hx

theorem named?_map {α : Type} {all : List α} {documentName : α → String}
    (hdistinct : (all.map documentName).Nodup) {x : α} (hx : x ∈ all) :
    named? (all.map fun x => (x, documentName x)) (.string (documentName x)) = some x := by
  have hfind : all.find? (documentName · == documentName x) = some x := by
    rw [← List.head?_filter, filter_eq_singleton hdistinct hx]
    rfl
  have hname : unitVariant? (.string (documentName x)) = some (documentName x) := rfl
  simp [named?, hname, List.find?_map, Function.comp_def, hfind]

@[simp] theorem string?_string (s : String) : string? (.string s) = some s := rfl

@[simp] theorem bool?_bool (b : Bool) : bool? (.bool b) = some b := rfl

theorem int64?_int {n : Int} (h : FitsInt64 n) : int64? (.int n) = some n :=
  if_pos h

section Lists

variable {α : Type} {decode? : Json → Option α} {encode : α → Json}

@[simp] theorem list?_map {xs : List α} (h : ∀ x ∈ xs, decode? (encode x) = some x) :
    list? decode? (.array (xs.map encode)) = some xs := by
  rw [list?]
  induction xs with
  | nil => rfl
  | cons x xs ih =>
      rw [List.forall_mem_cons] at h
      simp [h.1, ih h.2]

@[simp] theorem list?_texts (items : List String) :
    list? string? (texts items) = some items :=
  list?_map fun s _ => string?_string s

end Lists

def written (fields : List (String × Option Json)) : List (String × Json) :=
  fields.filterMap fun (name, value) => value.map (name, ·)

theorem filter_written (fields : List (String × Option Json)) (name : String) :
    (written fields).filter (·.1 == name) = written (fields.filter (·.1 == name)) := by
  induction fields with
  | nil => rfl
  | cons field rest ih =>
      obtain ⟨fieldName, _ | value⟩ := field <;>
        by_cases hname : fieldName = name <;> simp_all [written]

theorem member?_written {fields : List (String × Option Json)}
    (hdistinct : (fields.map Prod.fst).Nodup) {field : String × Option Json}
    (hfield : field ∈ fields) : member? (written fields) field.1 = some field.2 := by
  rw [member?, filter_written, filter_eq_singleton hdistinct hfield]
  obtain ⟨name, _ | value⟩ := field <;> rfl

theorem fields?_written (fields : List (String × Option Json)) {names : List String}
    (hnames : fields.map Prod.fst = names) (hdistinct : names.Nodup) :
    fields? names (.object (written fields)) = some (fields.map Prod.snd) := by
  subst hnames
  have hall : ∀ part ⊆ fields, (part.map Prod.fst).mapM (member? (written fields)) =
      some (part.map Prod.snd) := by
    intro part hpart
    induction part with
    | nil => rfl
    | cons field rest ih =>
        rw [List.cons_subset] at hpart
        simp [member?_written hdistinct hpart.1, ih hpart.2]
  exact hall fields (List.Subset.refl fields)

@[simp] theorem fields?_object {members : List (String × Json)} {names : List String}
    (hnames : members.map Prod.fst = names) (hdistinct : names.Nodup) :
    fields? names (.object members) = some (members.map fun member => some member.2) := by
  have hwritten : written (members.map fun member => (member.1, some member.2)) = members := by
    simp [written, List.filterMap_map]
  have hfields := fields?_written (members.map fun member => (member.1, some member.2))
    (by simpa [Function.comp_def] using hnames) hdistinct
  simpa [hwritten, Function.comp_def] using hfields

section Field

variable {α : Type} {decode? : Json → Option α}

@[simp] theorem required?_some (tree : Json) : required? decode? (some tree) = decode? tree :=
  rfl

@[simp] theorem default?_some (default : α) (tree : Json) :
    default? default decode? (some tree) = decode? tree :=
  rfl

theorem optional?_map {encode : α → Json} (hdecode : ∀ x, decode? (encode x) = some x)
    (hnull : ∀ x, encode x ≠ .null) (x : Option α) :
    optional? decode? (x.map encode) = some x := by
  cases x with
  | none => rfl
  | some x =>
      rw [Option.map_some, optional?]
      · rw [hdecode, Option.map_some]
      · exact hnull x

@[simp] theorem payload?_object (name : String) (payload : Json) :
    payload? (.object [(name, payload)]) = some (name, payload) :=
  rfl

end Field

/-! ## Readable trees -/

@[simp] theorem readable_string (s : String) : (string s).readable = true := rfl

@[simp] theorem readable_bool (b : Bool) : (bool b).readable = true := rfl

@[simp] theorem readable_int (n : Int) : (int n).readable = true := rfl

@[simp] theorem readable_array (items : List Json) :
    (array items).readable = items.all readable := by
  rw [readable]
  induction items with
  | nil => rfl
  | cons item rest ih => rw [readableItems, List.all_cons, ih]

@[simp] theorem readable_object (members : List (String × Json)) :
    (object members).readable = members.all (·.2.readable) := by
  rw [readable]
  induction members with
  | nil => rfl
  | cons member rest ih => rw [readableMembers, List.all_cons, ih]

@[simp] theorem readable_texts (items : List String) : (texts items).readable = true := by
  simp [texts]

end ProbeLowering.Json

namespace ProbeLowering

open Json

namespace Language

@[simp] theorem decode?_encode (l : Language) : decode? l.encode = some l :=
  named?_map (by decide) (by cases l <;> decide)

@[simp] theorem readable_encode (l : Language) : l.encode.readable = true := rfl

end Language

namespace ScalarType

@[simp] theorem decode?_encode (t : ScalarType) : decode? t.encode = some t :=
  named?_map (by decide) (by cases t <;> decide)

@[simp] theorem readable_encode (t : ScalarType) : t.encode.readable = true := rfl

end ScalarType

namespace Builtin

@[simp] theorem decode?_encode (b : Builtin) : decode? b.encode = some b :=
  named?_map (by decide) (by cases b <;> decide)

@[simp] theorem readable_encode (b : Builtin) : b.encode.readable = true := rfl

end Builtin

namespace ProbeKind

@[simp] theorem decode?_encode (k : ProbeKind) : decode? k.encode = some k :=
  named?_map (by decide) (by cases k <;> decide)

@[simp] theorem readable_encode (k : ProbeKind) : k.encode.readable = true := rfl

end ProbeKind

namespace ConditionOp

@[simp] theorem decode?_encode (op : ConditionOp) : decode? op.encode = some op :=
  named?_map (by decide) (by cases op <;> decide)

@[simp] theorem readable_encode (op : ConditionOp) : op.encode.readable = true := rfl

end ConditionOp

namespace BinaryOp

@[simp] theorem decode?_encode (op : BinaryOp) : decode? op.encode = some op := by
  cases op
  decide

@[simp] theorem readable_encode (op : BinaryOp) : op.encode.readable = true := by
  cases op
  rfl

end BinaryOp

@[simp] theorem mem_encodeOptional {α : Type} {name : String} {encode : α → Json}
    {x : Option α} {member : String × Json} :
    member ∈ encodeOptional name encode x ↔ ∃ y, x = some y ∧ (name, encode y) = member := by
  cases x <;> simp [encodeOptional, eq_comm]

namespace TracePoint

@[simp] theorem decode?_encode (p : TracePoint) : decode? p.encode = some p := by
  simp [decode?, encode]

@[simp] theorem readable_encode (p : TracePoint) : p.encode.readable = true := by
  simp [encode]

end TracePoint

namespace Target

@[simp] theorem decode?_encode (t : Target) : decode? t.encode = some t := by
  simp [decode?, encode]

@[simp] theorem readable_encode (t : Target) : t.encode.readable = true := by
  simp [encode]

end Target

namespace MapDecl

theorem encode_eq_written (m : MapDecl) : m.encode = .object (written
    [("name", some (.string m.name)), ("key_type", m.keyType.map ScalarType.encode),
      ("value_struct", m.valueStruct.map .string)]) := by
  obtain ⟨name, _ | keyType, _ | valueStruct⟩ := m <;> rfl

@[simp] theorem decode?_encode (m : MapDecl) : decode? m.encode = some m := by
  have hkey := optional?_map ScalarType.decode?_encode (by rintro _ ⟨⟩) m.keyType
  have hvalue := optional?_map string?_string (by rintro _ ⟨⟩) m.valueStruct
  simp [decode?, encode_eq_written, fields?_written, hkey, hvalue]

@[simp] theorem readable_encode (m : MapDecl) : m.encode.readable = true := by
  simp [encode]

end MapDecl

namespace FunctionLatency

@[simp] theorem decode?_encode (l : FunctionLatency) : decode? l.encode = some l := by
  simp [decode?, encode]

@[simp] theorem readable_encode (l : FunctionLatency) : l.encode.readable = true := by
  simp [encode]

end FunctionLatency

namespace Condition

@[simp] theorem decode?_encode (c : Condition) : decode? c.encode = some c := by
  simp [decode?, encode]

@[simp] theorem readable_encode (c : Condition) : c.encode.readable = true := by
  simp [encode]

end Condition

namespace Printk

@[simp] theorem decode?_encode (p : Printk) : decode? p.encode = some p := by
  cases p <;> simp [decode?, encode]

@[simp] theorem readable_encode (p : Printk) : p.encode.readable = true := by
  cases p <;> simp [encode]

end Printk

end ProbeLowering
