import ProbeLowering.DebugInfo.Snapshot
import ProbeLowering.Json.Shape

/-!
# Documents of debug facts

A function that a document names without facts takes nothing and returns void.
-/

namespace ProbeLowering.DebugInfo

open Json

namespace VarKind

def documentName : VarKind → String
  | base => "base_type"
  | pointer => "pointer"
  | struct => "struct"
  | void => "void"

def encode (k : VarKind) : Json := .string k.documentName

def decode? : Json → Option VarKind :=
  named? ([base, pointer, struct, void].map fun k => (k, k.documentName))

end VarKind

namespace ArgInfo

def encode (i : ArgInfo) : Json :=
  .object [("offset", .int i.offset), ("type", i.kind.encode),
    ("type_name", .string i.typeName)]

def decode? (tree : Json) : Option ArgInfo := do
  let [offset, kind, typeName] ← fields? ["offset", "type", "type_name"] tree | none
  some {
    offset := ← required? int64? offset
    kind := ← required? VarKind.decode? kind
    typeName := ← required? string? typeName }

end ArgInfo

namespace MemberInfo

def encode (i : MemberInfo) : Json :=
  .object [("offset", .int i.offset), ("type", i.kind.encode),
    ("type_name", .string i.typeName)]

def decode? (tree : Json) : Option MemberInfo := do
  let [offset, kind, typeName] ← fields? ["offset", "type", "type_name"] tree | none
  some {
    offset := ← required? int64? offset
    kind := ← required? VarKind.decode? kind
    typeName := ← required? string? typeName }

end MemberInfo

namespace RetValInfo

def encode (i : RetValInfo) : Json :=
  .object [("type", i.kind.encode), ("type_name", .string i.typeName)]

def decode? (tree : Json) : Option RetValInfo := do
  let [kind, typeName] ← fields? ["type", "type_name"] tree | none
  some {
    kind := ← required? VarKind.decode? kind
    typeName := ← default? "" string? typeName }

end RetValInfo

namespace FunctionFacts

def encode (f : FunctionFacts) : Json :=
  .object [("args", ofMap ArgInfo.encode f.args), ("retval", f.retval.encode)]

def decode? (tree : Json) : Option FunctionFacts := do
  let [args, retval] ← fields? ["args", "retval"] tree | none
  some {
    args := ← default? {} (map? ArgInfo.decode?) args
    retval := ← default? {} RetValInfo.decode? retval }

end FunctionFacts

namespace Snapshot

def encode (s : Snapshot) : Json :=
  .object [("functions", ofMap FunctionFacts.encode s.functions),
    ("structs", ofMap (ofMap MemberInfo.encode) s.structs)]

def decode? (tree : Json) : Option Snapshot := do
  let [functions, structs] ← fields? ["functions", "structs"] tree | none
  some {
    functions := ← default? {} (map? FunctionFacts.decode?) functions
    structs := ← default? {} (map? (map? MemberInfo.decode?)) structs }

end Snapshot

end ProbeLowering.DebugInfo
