import ProbeLowering.Vocabulary

/-!
# Logical programs

What the user asks to trace, before any debug information is consulted.  Values
are named by expressions over arguments and results.
-/

namespace ProbeLowering.Logical

structure Output where
  name : String
  fields : List String := []
  deriving DecidableEq, Repr

structure Constant where
  name : String
  type : ScalarType
  value : String
  deriving DecidableEq, Repr

structure Argument where
  id : String
  expr : String
  deriving DecidableEq, Repr

structure ReturnValue where
  id : String
  expr : String
  deriving DecidableEq, Repr

/-- Reads the map entry under `key` and names its leading fields. -/
structure MapValue where
  mapName : String
  key : Builtin
  valueIds : List String := []
  deriving DecidableEq, Repr

structure StashAction where
  mapName : String
  key : Builtin
  valueVariables : List String := []
  cond : Condition := {}
  deriving DecidableEq, Repr

structure DeleteAction where
  mapName : String
  key : Builtin
  deriving DecidableEq, Repr

structure OutputAction where
  outputName : String
  valueVariables : List String := []
  deriving DecidableEq, Repr

structure Probe where
  name : String
  tracepoint : TracePoint
  consts : List Constant := []
  args : List Argument := []
  retVals : List ReturnValue := []
  mapVals : List MapValue := []
  latency : Option FunctionLatency := none
  stashes : List StashAction := []
  deletes : List DeleteAction := []
  outputs : List OutputAction := []
  printks : List Printk := []
  deriving DecidableEq, Repr

structure Program where
  language : Language := .unknown
  maps : List MapDecl := []
  outputs : List Output := []
  probes : List Probe := []
  deriving DecidableEq, Repr

structure Deployment where
  target : Target
  tracepoints : List Program := []
  deriving DecidableEq, Repr

end ProbeLowering.Logical
