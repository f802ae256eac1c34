import ProbeLowering.Document.Vocabulary
import ProbeLowering.Logical

/-!
# Documents of logical programs

Lists that a document leaves out are empty, and a language that it leaves out
is unknown.
-/

namespace ProbeLowering.Logical

open Json

namespace Output

def encode (o : Output) : Json :=
  .object [("name", .string o.name), ("fields", texts o.fields)]

def decode? (tree : Json) : Option Output := do
  let [name, fields] ← fields? ["name", "fields"] tree | none
  some {
    name := ← required? string? name
    fields := ← default? [] (list? string?) fields }

end Output

namespace Constant

def encode (c : Constant) : Json :=
  .object [("name", .string c.name), ("type", c.type.encode),
    ("value", .string c.value)]

def decode? (tree : Json) : Option Constant := do
  let [name, type, value] ← fields? ["name", "type", "value"] tree | none
  some {
    name := ← required? string? name
    type := ← required? ScalarType.decode? type
    value := ← required? string? value }

end Constant

namespace Argument

def encode (a : Argument) : Json :=
  .object [("id", .string a.id), ("expr", .string a.expr)]

def decode? (tree : Json) : Option Argument := do
  let [id, expr] ← fields? ["id", "expr"] tree | none
  some ⟨← required? string? id, ← required? string? expr⟩

end Argument

namespace ReturnValue

def encode (r : ReturnValue) : Json :=
  .object [("id", .string r.id), ("expr", .string r.expr)]

def decode? (tree : Json) : Option ReturnValue := do
  let [id, expr] ← fields? ["id", "expr"] tree | none
  some ⟨← required? string? id, ← required? string? expr⟩

end ReturnValue

namespace MapValue

def encode (v : MapValue) : Json :=
  .object [("map_name", .string v.mapName), ("key", v.key.encode),
    ("value_ids", texts v.valueIds)]

def decode? (tree : Json) : Option MapValue := do
  let [mapName, key, valueIds] ←
    fields? ["map_name", "key", "value_ids"] tree | none
  some {
    mapName := ← required? string? mapName
    key := ← required? Builtin.decode? key
    valueIds := ← default? [] (list? string?) valueIds }

end MapValue

namespace StashAction

def encode (a : StashAction) : Json :=
  .object [("map_name", .string a.mapName), ("key", a.key.encode),
    ("value_variable_names", texts a.valueVariables), ("cond", a.cond.encode)]

def decode? (tree : Json) : Option StashAction := do
  let [mapName, key, valueVariables, cond] ←
    fields? ["map_name", "key", "value_variable_names", "cond"] tree | none
  some {
    mapName := ← required? string? mapName
    key := ← required? Builtin.decode? key
    valueVariables := ← default? [] (list? string?) valueVariables
    cond := ← default? {} Condition.decode? cond }

end StashAction

namespace DeleteAction

def encode (a : DeleteAction) : Json :=
  .object [("map_name", .string a.mapName), ("key", a.key.encode)]

def decode? (tree : Json) : Option DeleteAction := do
  let [mapName, key] ← fields? ["map_name", "key"] tree | none
  some ⟨← required? string? mapName, ← required? Builtin.decode? key⟩

end DeleteAction

namespace OutputAction

def encode (a : OutputAction) : Json :=
  .object [("output_name", .string a.outputName),
    ("variable_names", texts a.valueVariables)]

def decode? (tree : Json) : Option OutputAction := do
  let [outputName, valueVariables] ←
    fields? ["output_name", "variable_names"] tree | none
  some {
    outputName := ← required? string? outputName
    valueVariables := ← default? [] (list? string?) valueVariables }

end OutputAction

namespace Probe

def encode (p : Probe) : Json :=
  .object ([("name", .string p.name), ("tracepoint", p.tracepoint.encode),
      ("consts", .array (p.consts.map Constant.encode)),
      ("args", .array (p.args.map Argument.encode)),
      ("ret_vals", .array (p.retVals.map ReturnValue.encode)),
      ("map_vals", .array (p.mapVals.map MapValue.encode))]
    ++ encodeOptional "function_latency" FunctionLatency.encode p.latency
    ++ [("map_stash_actions", .array (p.stashes.map StashAction.encode)),
      ("map_delete_actions", .array (p.deletes.map DeleteAction.encode)),
      ("output_actions", .array (p.outputs.map OutputAction.encode)),
      ("printks", .array (p.printks.map Printk.encode))])

def decode? (tree : Json) : Option Probe := do
  let [name, tracepoint, consts, args, retVals, mapVals, latency, stashes, deletes,
      outputs, printks] ←
    fields? ["name", "tracepoint", "consts", "args", "ret_vals", "map_vals",
      "function_latency", "map_stash_actions", "map_delete_actions",
      "output_actions", "printks"] tree | none
  some {
    name := ← required? string? name
    tracepoint := ← required? TracePoint.decode? tracepoint
    consts := ← default? [] (list? Constant.decode?) consts
    args := ← default? [] (list? Argument.decode?) args
    retVals := ← default? [] (list? ReturnValue.decode?) retVals
    mapVals := ← default? [] (list? MapValue.decode?) mapVals
    latency := ← optional? FunctionLatency.decode? latency
    stashes := ← default? [] (list? StashAction.decode?) stashes
    deletes := ← default? [] (list? DeleteAction.decode?) deletes
    outputs := ← default? [] (list? OutputAction.decode?) outputs
    printks := ← default? [] (list? Printk.decode?) printks }

end Probe

namespace Program

def encode (p : Program) : Json :=
  .object [("language", p.language.encode),
    ("maps", .array (p.maps.map MapDecl.encode)),
    ("outputs", .array (p.outputs.map Output.encode)),
    ("probes", .array (p.probes.map Probe.encode))]

def decode? (tree : Json) : Option Program := do
  let [language, maps, outputs, probes] ←
    fields? ["language", "maps", "outputs", "probes"] tree | none
  some {
    language := ← default? .unknown Language.decode? language
    maps := ← default? [] (list? MapDecl.decode?) maps
    outputs := ← default? [] (list? Output.decode?) outputs
    probes := ← default? [] (list? Probe.decode?) probes }

end Program

namespace Deployment

def encodeTracepoint (p : Program) : Json := .object [("program", p.encode)]

def decodeTracepoint? (tree : Json) : Option Program := do
  let [program] ← fields? ["program"] tree | none
  required? Program.decode? program

def encode (d : Deployment) : Json :=
  .object [("deployment_spec", d.target.encode),
    ("tracepoints", .array (d.tracepoints.map encodeTracepoint))]

def decode? (tree : Json) : Option Deployment := do
  let [target, tracepoints] ←
    fields? ["deployment_spec", "tracepoints"] tree | none
  some {
    target := ← required? Target.decode? target
    tracepoints := ← default? [] (list? decodeTracepoint?) tracepoints }

end Deployment

end ProbeLowering.Logical
