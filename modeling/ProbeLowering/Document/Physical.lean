import ProbeLowering.Document.Vocabulary
import ProbeLowering.Json.Printer
import ProbeLowering.Physical

/-!
# Documents of physical programs

A physical program is written in full: apart from the latency of a probe and
the types of a map, no field may be left out.
-/

namespace ProbeLowering.Physical

open Json

namespace StructField

def encode (f : StructField) : Json :=
  .object [("name", .string f.name), ("type", f.type.encode)]

def decode? (tree : Json) : Option StructField := do
  let [name, type] ← fields? ["name", "type"] tree | none
  some ⟨← required? string? name, ← required? ScalarType.decode? type⟩

end StructField

namespace Struct

def encode (s : Struct) : Json :=
  .object [("name", .string s.name),
    ("fields", .array (s.fields.map StructField.encode))]

def decode? (tree : Json) : Option Struct := do
  let [name, fields] ← fields? ["name", "fields"] tree | none
  some ⟨← required? string? name, ← required? (list? StructField.decode?) fields⟩

end Struct

namespace PerfBuffer

def encode (o : PerfBuffer) : Json :=
  .object [("name", .string o.name), ("fields", texts o.fields),
    ("struct_type", .string o.structType)]

def decode? (tree : Json) : Option PerfBuffer := do
  let [name, fields, structType] ←
    fields? ["name", "fields", "struct_type"] tree | none
  some {
    name := ← required? string? name
    fields := ← required? (list? string?) fields
    structType := ← required? string? structType }

end PerfBuffer

namespace Register

def documentName : Register → String
  | sp => "sp"
  | rc => "rc"

def encode (r : Register) : Json := .string r.documentName

def decode? : Json → Option Register :=
  named? ([sp, rc].map fun r => (r, r.documentName))

end Register

namespace ScalarSource

def encode : ScalarSource → Json
  | register reg => .object [("register", reg.encode)]
  | builtin value => .object [("builtin", value.encode)]
  | memory base offset =>
      .object [("memory",
        .object [("base", .string base), ("offset", .int offset)])]
  | constant literal => .object [("constant", .string literal)]
  | binary op lhs rhs =>
      .object [("binary_expr",
        .object [("op", op.encode), ("lhs", .string lhs), ("rhs", .string rhs)])]

def decodeMemory? (tree : Json) : Option ScalarSource := do
  let [base, offset] ← fields? ["base", "offset"] tree | none
  some (.memory (← required? string? base) (← required? int64? offset))

def decodeBinary? (tree : Json) : Option ScalarSource := do
  let [op, lhs, rhs] ← fields? ["op", "lhs", "rhs"] tree | none
  some (.binary (← required? BinaryOp.decode? op) (← required? string? lhs)
    (← required? string? rhs))

def decode? (tree : Json) : Option ScalarSource := do
  match ← payload? tree with
  | ("register", reg) => (Register.decode? reg).map .register
  | ("builtin", value) => (Builtin.decode? value).map .builtin
  | ("memory", load) => decodeMemory? load
  | ("constant", literal) => (string? literal).map .constant
  | ("binary_expr", expr) => decodeBinary? expr
  | _ => none

end ScalarSource

namespace ScalarVariable

def encode (v : ScalarVariable) : Json :=
  .object [("name", .string v.name), ("type", v.type.encode),
    ("source", v.source.encode)]

def decode? (tree : Json) : Option ScalarVariable := do
  let [name, type, source] ← fields? ["name", "type", "source"] tree | none
  some {
    name := ← required? string? name
    type := ← required? ScalarType.decode? type
    source := ← required? ScalarSource.decode? source }

end ScalarVariable

namespace MapVariable

def encode (v : MapVariable) : Json :=
  .object [("name", .string v.name), ("struct_type", .string v.structType),
    ("map_name", .string v.mapName), ("key_variable_name", .string v.keyVariable)]

def decode? (tree : Json) : Option MapVariable := do
  let [name, structType, mapName, keyVariable] ←
    fields? ["name", "struct_type", "map_name", "key_variable_name"] tree | none
  some {
    name := ← required? string? name
    structType := ← required? string? structType
    mapName := ← required? string? mapName
    keyVariable := ← required? string? keyVariable }

end MapVariable

namespace MemberVariable

def encode (v : MemberVariable) : Json :=
  .object [("name", .string v.name), ("type", v.type.encode),
    ("struct_base", .string v.structBase),
    ("is_struct_base_pointer", .bool v.baseIsPointer), ("field", .string v.field)]

def decode? (tree : Json) : Option MemberVariable := do
  let [name, type, structBase, baseIsPointer, field] ←
    fields? ["name", "type", "struct_base", "is_struct_base_pointer", "field"] tree
    | none
  some {
    name := ← required? string? name
    type := ← required? ScalarType.decode? type
    structBase := ← required? string? structBase
    baseIsPointer := ← required? bool? baseIsPointer
    field := ← required? string? field }

end MemberVariable

namespace FieldAssignment

def encode (a : FieldAssignment) : Json :=
  .object [("field_name", .string a.fieldName),
    ("variable_name", .string a.variableName)]

def decode? (tree : Json) : Option FieldAssignment := do
  let [fieldName, variableName] ←
    fields? ["field_name", "variable_name"] tree | none
  some ⟨← required? string? fieldName, ← required? string? variableName⟩

end FieldAssignment

namespace StructVariable

def encode (v : StructVariable) : Json :=
  .object [("name", .string v.name), ("struct_type", .string v.structType),
    ("field_assignments", .array (v.assignments.map FieldAssignment.encode))]

def decode? (tree : Json) : Option StructVariable := do
  let [name, structType, assignments] ←
    fields? ["name", "struct_type", "field_assignments"] tree | none
  some {
    name := ← required? string? name
    structType := ← required? string? structType
    assignments := ← required? (list? FieldAssignment.decode?) assignments }

end StructVariable

namespace Variable

def encode : Variable → Json
  | scalar v => .object [("scalar", v.encode)]
  | map v => .object [("map", v.encode)]
  | member v => .object [("member", v.encode)]
  | struct v => .object [("struct", v.encode)]

def decode? (tree : Json) : Option Variable := do
  match ← payload? tree with
  | ("scalar", v) => (ScalarVariable.decode? v).map .scalar
  | ("map", v) => (MapVariable.decode? v).map .map
  | ("member", v) => (MemberVariable.decode? v).map .member
  | ("struct", v) => (StructVariable.decode? v).map .struct
  | _ => none

end Variable

namespace StashAction

def encode (a : StashAction) : Json :=
  .object [("map_name", .string a.mapName),
    ("key_variable_name", .string a.keyVariable),
    ("value_variable_name", .string a.valueVariable), ("cond", a.cond.encode)]

def decode? (tree : Json) : Option StashAction := do
  let [mapName, keyVariable, valueVariable, cond] ←
    fields? ["map_name", "key_variable_name", "value_variable_name", "cond"] tree
    | none
  some {
    mapName := ← required? string? mapName
    keyVariable := ← required? string? keyVariable
    valueVariable := ← required? string? valueVariable
    cond := ← required? Condition.decode? cond }

end StashAction

namespace DeleteAction

def encode (a : DeleteAction) : Json :=
  .object [("map_name", .string a.mapName),
    ("key_variable_name", .string a.keyVariable)]

def decode? (tree : Json) : Option DeleteAction := do
  let [mapName, keyVariable] ← fields? ["map_name", "key_variable_name"] tree | none
  some ⟨← required? string? mapName, ← required? string? keyVariable⟩

end DeleteAction

namespace OutputAction

def encode (a : OutputAction) : Json :=
  .object [("perf_buffer_name", .string a.bufferName),
    ("variable_name", .string a.variableName)]

def decode? (tree : Json) : Option OutputAction := do
  let [bufferName, variableName] ←
    fields? ["perf_buffer_name", "variable_name"] tree | none
  some ⟨← required? string? bufferName, ← required? string? variableName⟩

end OutputAction

namespace Probe

def encode (p : Probe) : Json :=
  .object ([("name", .string p.name), ("tracepoint", p.tracepoint.encode),
      ("vars", .array (p.vars.map Variable.encode)),
      ("map_stash_actions", .array (p.stashes.map StashAction.encode)),
      ("map_delete_actions", .array (p.deletes.map DeleteAction.encode)),
      ("output_actions", .array (p.outputs.map OutputAction.encode))]
    ++ encodeOptional "function_latency" FunctionLatency.encode p.latency
    ++ [("printks", .array (p.printks.map Printk.encode))])

def decode? (tree : Json) : Option Probe := do
  let [name, tracepoint, vars, stashes, deletes, outputs, latency, printks] ←
    fields? ["name", "tracepoint", "vars", "map_stash_actions",
      "map_delete_actions", "output_actions", "function_latency", "printks"] tree
    | none
  some {
    name := ← required? string? name
    tracepoint := ← required? TracePoint.decode? tracepoint
    vars := ← required? (list? Variable.decode?) vars
    stashes := ← required? (list? StashAction.decode?) stashes
    deletes := ← required? (list? DeleteAction.decode?) deletes
    outputs := ← required? (list? OutputAction.decode?) outputs
    latency := ← optional? FunctionLatency.decode? latency
    printks := ← required? (list? Printk.decode?) printks }

end Probe

namespace Program

def encode (p : Program) : Json :=
  .object [("deployment_spec", p.target.encode), ("language", p.language.encode),
    ("structs", .array (p.structs.map Struct.encode)),
    ("maps", .array (p.maps.map MapDecl.encode)),
    ("outputs", .array (p.outputs.map PerfBuffer.encode)),
    ("probes", .array (p.probes.map Probe.encode))]

def decode? (tree : Json) : Option Program := do
  let [target, language, structs, maps, outputs, probes] ←
    fields? ["deployment_spec", "language", "structs", "maps", "outputs", "probes"]
      tree | none
  some {
    target := ← required? Target.decode? target
    language := ← required? Language.decode? language
    structs := ← required? (list? Struct.decode?) structs
    maps := ← required? (list? MapDecl.decode?) maps
    outputs := ← required? (list? PerfBuffer.decode?) outputs
    probes := ← required? (list? Probe.decode?) probes }

def render (p : Program) (pretty : Bool) : String :=
  (if pretty then p.encode.pretty else p.encode.compact) ++ "\n"

end Program

end ProbeLowering.Physical
