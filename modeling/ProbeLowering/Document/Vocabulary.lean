import ProbeLowering.Json.Shape
import ProbeLowering.Vocabulary

/-!
# Documents of the shared vocabulary

Each type has a written form: `encode` gives it as a JSON tree and `decode?`
reads it back.  Enumerations are written by name.
-/

namespace ProbeLowering

open Json

namespace Language

def all : List Language := [unknown, go, c, cpp]

def documentName : Language → String
  | unknown => "unknown"
  | go => "go"
  | c => "c"
  | cpp => "cpp"

def encode (l : Language) : Json := .string l.documentName

def decode? : Json → Option Language :=
  named? (all.map fun l => (l, l.documentName))

end Language

namespace ScalarType

def all : List ScalarType :=
  [bool, short, ushort, int, uint, long, ulong, longLong, ulongLong, char, uchar,
   int8, int16, int32, int64, uint8, uint16, uint32, uint64, float, double,
   voidPointer, string, byteArray]

def documentName : ScalarType → String
  | bool => "BOOL"
  | short => "SHORT"
  | ushort => "USHORT"
  | int => "INT"
  | uint => "UINT"
  | long => "LONG"
  | ulong => "ULONG"
  | longLong => "LONGLONG"
  | ulongLong => "ULONGLONG"
  | char => "CHAR"
  | uchar => "UCHAR"
  | int8 => "INT8"
  | int16 => "INT16"
  | int32 => "INT32"
  | int64 => "INT64"
  | uint8 => "UINT8"
  | uint16 => "UINT16"
  | uint32 => "UINT32"
  | uint64 => "UINT64"
  | float => "FLOAT"
  | double => "DOUBLE"
  | voidPointer => "VOID_POINTER"
  | string => "STRING"
  | byteArray => "BYTE_ARRAY"

def encode (t : ScalarType) : Json := .string t.documentName

def decode? : Json → Option ScalarType :=
  named? (all.map fun t => (t, t.documentName))

end ScalarType

namespace Builtin

def all : List Builtin := [goid, tgid, tgidPid, tgidStartTime, ktime]

def documentName : Builtin → String
  | goid => "GOID"
  | tgid => "TGID"
  | tgidPid => "TGID_PID"
  | tgidStartTime => "TGID_START_TIME"
  | ktime => "KTIME"

def encode (b : Builtin) : Json := .string b.documentName

def decode? : Json → Option Builtin :=
  named? (all.map fun b => (b, b.documentName))

end Builtin

namespace ProbeKind

def documentName : ProbeKind → String
  | entry => "entry"
  | onReturn => "return"

def encode (k : ProbeKind) : Json := .string k.documentName

def decode? : Json → Option ProbeKind :=
  named? ([entry, onReturn].map fun k => (k, k.documentName))

end ProbeKind

namespace ConditionOp

def documentName : ConditionOp → String
  | nil => "nil"
  | equal => "equal"

def encode (op : ConditionOp) : Json := .string op.documentName

def decode? : Json → Option ConditionOp :=
  named? ([nil, equal].map fun op => (op, op.documentName))

end ConditionOp

namespace BinaryOp

def encode : BinaryOp → Json
  | sub => .string "sub"

def decode? : Json → Option BinaryOp := named? [(sub, "sub")]

end BinaryOp

def encodeOptional {α : Type} (name : String) (encode : α → Json) :
    Option α → List (String × Json)
  | some x => [(name, encode x)]
  | none => []

namespace TracePoint

def encode (p : TracePoint) : Json :=
  .object [("symbol", .string p.symbol), ("type", p.kind.encode)]

def decode? (tree : Json) : Option TracePoint := do
  let [symbol, kind] ← fields? ["symbol", "type"] tree | none
  some {
    symbol := ← required? string? symbol
    kind := ← default? .entry ProbeKind.decode? kind }

end TracePoint

namespace Target

def encode (t : Target) : Json := .object [("path", .string t.path)]

def decode? (tree : Json) : Option Target := do
  let [path] ← fields? ["path"] tree | none
  some ⟨← required? string? path⟩

end Target

namespace MapDecl

def encode (m : MapDecl) : Json :=
  .object (("name", .string m.name)
    :: (encodeOptional "key_type" ScalarType.encode m.keyType
      ++ encodeOptional "value_struct" .string m.valueStruct))

def decode? (tree : Json) : Option MapDecl := do
  let [name, keyType, valueStruct] ←
    fields? ["name", "key_type", "value_struct"] tree | none
  some {
    name := ← required? string? name
    keyType := ← optional? ScalarType.decode? keyType
    valueStruct := ← optional? string? valueStruct }

end MapDecl

namespace FunctionLatency

def encode (l : FunctionLatency) : Json := .object [("id", .string l.id)]

def decode? (tree : Json) : Option FunctionLatency := do
  let [id] ← fields? ["id"] tree | none
  some ⟨← required? string? id⟩

end FunctionLatency

namespace Condition

def encode (c : Condition) : Json :=
  .object [("op", c.op.encode), ("vars", texts c.vars)]

def decode? (tree : Json) : Option Condition := do
  let [op, vars] ← fields? ["op", "vars"] tree | none
  some {
    op := ← default? .nil ConditionOp.decode? op
    vars := ← default? [] (list? string?) vars }

end Condition

namespace Printk

def encode : Printk → Json
  | text line => .object [("text", .string line)]
  | scalar name => .object [("scalar", .string name)]

def decode? (tree : Json) : Option Printk := do
  match ← payload? tree with
  | ("text", line) => (string? line).map .text
  | ("scalar", name) => (string? name).map .scalar
  | _ => none

end Printk

end ProbeLowering
