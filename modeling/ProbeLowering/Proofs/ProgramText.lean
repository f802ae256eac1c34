import ProbeLowering.Document.Physical
import ProbeLowering.Proofs.Documents

/-!
# The text of a physical program

The text that a program is rendered as is read back as the program it came from, on one
line or over several (`decode?_render`).  Offsets are the only part of a program that a
reader can refuse: they have to be integers of 64 bits.
-/

namespace ProbeLowering.Physical

open Json

def ScalarSource.OffsetFits : ScalarSource → Prop
  | memory _ offset => FitsInt64 offset
  | register _ | builtin _ | constant _ | binary .. => True

def Variable.OffsetFits : Variable → Prop
  | scalar v => v.source.OffsetFits
  | map _ | member _ | struct _ => True

def Probe.OffsetsFit (p : Probe) : Prop :=
  ∀ v ∈ p.vars, v.OffsetFits

def Program.OffsetsFit (p : Program) : Prop :=
  ∀ probe ∈ p.probes, probe.OffsetsFit

instance : ∀ s : ScalarSource, Decidable s.OffsetFits
  | .memory _ offset => inferInstanceAs (Decidable (FitsInt64 offset))
  | .register _ | .builtin _ | .constant _ | .binary .. => .isTrue trivial

instance : ∀ v : Variable, Decidable v.OffsetFits
  | .scalar v => inferInstanceAs (Decidable v.source.OffsetFits)
  | .map _ | .member _ | .struct _ => .isTrue trivial

instance (p : Probe) : Decidable p.OffsetsFit :=
  inferInstanceAs (Decidable (∀ v ∈ p.vars, v.OffsetFits))

instance (p : Program) : Decidable p.OffsetsFit :=
  inferInstanceAs (Decidable (∀ probe ∈ p.probes, probe.OffsetsFit))

namespace StructField

@[simp] theorem decode?_encode (f : StructField) : decode? f.encode = some f := by
  simp [decode?, encode]

@[simp] theorem readable_encode (f : StructField) : f.encode.readable = true := by
  simp [encode]

end StructField

namespace Struct

@[simp] theorem decode?_encode (s : Struct) : decode? s.encode = some s := by
  simp [decode?, encode]

@[simp] theorem readable_encode (s : Struct) : s.encode.readable = true := by
  simp [encode]

end Struct

namespace PerfBuffer

@[simp] theorem decode?_encode (o : PerfBuffer) : decode? o.encode = some o := by
  simp [decode?, encode]

@[simp] theorem readable_encode (o : PerfBuffer) : o.encode.readable = true := by
  simp [encode]

end PerfBuffer

namespace Register

@[simp] theorem decode?_encode (r : Register) : decode? r.encode = some r :=
  named?_map (by decide) (by cases r <;> decide)

@[simp] theorem readable_encode (r : Register) : r.encode.readable = true := rfl

end Register

namespace ScalarSource

theorem decode?_encode {s : ScalarSource} (h : s.OffsetFits) : decode? s.encode = some s := by
  cases s with
  | memory base offset =>
      have hoffset : int64? (.int offset) = some offset := int64?_int h
      simp [decode?, encode, decodeMemory?, hoffset]
  | binary op lhs rhs => simp [decode?, encode, decodeBinary?]
  | register reg => simp [decode?, encode]
  | builtin value => simp [decode?, encode]
  | constant literal => simp [decode?, encode]

@[simp] theorem readable_encode (s : ScalarSource) : s.encode.readable = true := by
  cases s <;> simp [encode]

end ScalarSource

namespace ScalarVariable

theorem decode?_encode {v : ScalarVariable} (h : v.source.OffsetFits) :
    decode? v.encode = some v := by
  simp [decode?, encode, ScalarSource.decode?_encode h]

@[simp] theorem readable_encode (v : ScalarVariable) : v.encode.readable = true := by
  simp [encode]

end ScalarVariable

namespace MapVariable

@[simp] theorem decode?_encode (v : MapVariable) : decode? v.encode = some v := by
  simp [decode?, encode]

@[simp] theorem readable_encode (v : MapVariable) : v.encode.readable = true := by
  simp [encode]

end MapVariable

namespace MemberVariable

@[simp] theorem decode?_encode (v : MemberVariable) : decode? v.encode = some v := by
  simp [decode?, encode]

@[simp] theorem readable_encode (v : MemberVariable) : v.encode.readable = true := by
  simp [encode]

end MemberVariable

namespace FieldAssignment

@[simp] theorem decode?_encode (a : FieldAssignment) : decode? a.encode = some a := by
  simp [decode?, encode]

@[simp] theorem readable_encode (a : FieldAssignment) : a.encode.readable = true := by
  simp [encode]

end FieldAssignment

namespace StructVariable

@[simp] theorem decode?_encode (v : StructVariable) : decode? v.encode = some v := by
  simp [decode?, encode]

@[simp] theorem readable_encode (v : StructVariable) : v.encode.readable = true := by
  simp [encode]

end StructVariable

namespace Variable

theorem decode?_encode {v : Variable} (h : v.OffsetFits) : decode? v.encode = some v := by
  cases v with
  | scalar v => simp [decode?, encode, ScalarVariable.decode?_encode h]
  | map v => simp [decode?, encode]
  | member v => simp [decode?, encode]
  | struct v => simp [decode?, encode]

@[simp] theorem readable_encode (v : Variable) : v.encode.readable = true := by
  cases v <;> simp [encode]

end Variable

namespace StashAction

@[simp] theorem decode?_encode (a : StashAction) : decode? a.encode = some a := by
  simp [decode?, encode]

@[simp] theorem readable_encode (a : StashAction) : a.encode.readable = true := by
  simp [encode]

end StashAction

namespace DeleteAction

@[simp] theorem decode?_encode (a : DeleteAction) : decode? a.encode = some a := by
  simp [decode?, encode]

@[simp] theorem readable_encode (a : DeleteAction) : a.encode.readable = true := by
  simp [encode]

end DeleteAction

namespace OutputAction

@[simp] theorem decode?_encode (a : OutputAction) : decode? a.encode = some a := by
  simp [decode?, encode]

@[simp] theorem readable_encode (a : OutputAction) : a.encode.readable = true := by
  simp [encode]

end OutputAction

namespace Probe

theorem encode_eq_written (p : Probe) : p.encode = .object (written
    [("name", some (.string p.name)), ("tracepoint", some p.tracepoint.encode),
      ("vars", some (.array (p.vars.map Variable.encode))),
      ("map_stash_actions", some (.array (p.stashes.map StashAction.encode))),
      ("map_delete_actions", some (.array (p.deletes.map DeleteAction.encode))),
      ("output_actions", some (.array (p.outputs.map OutputAction.encode))),
      ("function_latency", p.latency.map FunctionLatency.encode),
      ("printks", some (.array (p.printks.map Printk.encode)))]) := by
  obtain ⟨name, tracepoint, vars, stashes, deletes, outputs, _ | latency, printks⟩ := p <;> rfl

theorem decode?_encode {p : Probe} (h : p.OffsetsFit) : decode? p.encode = some p := by
  have hvars := list?_map fun v hv => Variable.decode?_encode (h v hv)
  have hlatency := optional?_map FunctionLatency.decode?_encode (by rintro _ ⟨⟩) p.latency
  simp [decode?, encode_eq_written, fields?_written, hvars, hlatency]

@[simp] theorem readable_encode (p : Probe) : p.encode.readable = true := by
  simp [encode]

end Probe

namespace Program

theorem decode?_encode {p : Program} (h : p.OffsetsFit) : decode? p.encode = some p := by
  have hprobes := list?_map fun probe hprobe => Probe.decode?_encode (h probe hprobe)
  simp [decode?, encode, hprobes]

@[simp] theorem readable_encode (p : Program) : p.encode.readable = true := by
  simp [encode]

theorem exists_layout (p : Program) (pretty : Bool) :
    ∃ layout, p.render pretty = String.ofList (write layout p.encode ++ ['\n']) := by
  cases pretty with
  | false => exact ⟨.compact, String.ofList_append.symm⟩
  | true => exact ⟨.indented 0, String.ofList_append.symm⟩

theorem parse?_render (p : Program) (pretty : Bool) :
    Json.parse? (p.render pretty) = some p.encode := by
  obtain ⟨layout, hlayout⟩ := exists_layout p pretty
  rw [hlayout]
  exact parse?_write p.readable_encode layout (by simp [isBlank])

/-- The text of a program is a document of the program, however it is laid out. -/
theorem decode?_render {p : Program} (h : p.OffsetsFit) (pretty : Bool) :
    (Json.parse? (p.render pretty)).bind decode? = some p := by
  rw [parse?_render, Option.bind_some, decode?_encode h]

def ofEveryKind : Program where
  target := ⟨"/opt/\\srv \"a\"\t\x01/λ😀"⟩
  language := .cpp
  structs := [⟨"pair", [⟨"first", .longLong⟩, ⟨"", .voidPointer⟩]⟩, ⟨"none", []⟩]
  maps := [⟨"open", none, none⟩, ⟨"settled", some .uint64, some "pair"⟩]
  outputs := [⟨"events", ["first", "first"], "pair"⟩]
  probes := [
    { name := "enter"
      tracepoint := ⟨"ns::f(int, \"x\")", .entry⟩
      vars := [
        .scalar ⟨"sp_", .voidPointer, .register .sp⟩,
        .scalar ⟨"key", .uint64, .builtin .tgidPid⟩,
        .scalar ⟨"low", .int, .memory "sp_" (-0x8000000000000000)⟩,
        .scalar ⟨"high", .int, .memory "sp_" 0x7fffffffffffffff⟩,
        .scalar ⟨"one", .string, .constant "null\n"⟩,
        .scalar ⟨"gap", .int64, .binary .sub "high" "low"⟩,
        .struct ⟨"packed", "pair", [⟨"first", "one"⟩, ⟨"", "gap"⟩]⟩]
      stashes := [⟨"settled", "key", "packed", ⟨.equal, ["low", "high"]⟩⟩] },
    { name := "leave"
      tracepoint := ⟨"ns::f(int, \"x\")", .onReturn⟩
      vars := [
        .map ⟨"entry", "pair", "settled", "key"⟩,
        .member ⟨"first", .longLong, "entry", true, "first"⟩]
      deletes := [⟨"settled", "key"⟩]
      outputs := [⟨"events", "entry"⟩]
      latency := some ⟨"lat"⟩
      printks := [.text "100%", .scalar "first"] }]

theorem decode?_render_ofEveryKind : ofEveryKind.OffsetsFit ∧
    (Json.parse? (ofEveryKind.render true)).bind decode? = some ofEveryKind ∧
    (Json.parse? (ofEveryKind.render false)).bind decode? = some ofEveryKind :=
  have h : ofEveryKind.OffsetsFit := by decide
  ⟨h, decode?_render h true, decode?_render h false⟩

end Program

end ProbeLowering.Physical
