import ProbeLowering.Vocabulary

/-!
# Physical programs

Every value of a physical probe is a register, a built-in, a constant, a
difference, or a load at a fixed offset from the address held by another
variable.
-/

namespace ProbeLowering.Physical

structure StructField where
  name : String
  type : ScalarType
  deriving DecidableEq, Repr

structure Struct where
  name : String
  fields : List StructField := []
  deriving DecidableEq, Repr

structure PerfBuffer where
  name : String
  fields : List String
  structType : String
  deriving DecidableEq, Repr

inductive Register where
  | sp
  | rc
  deriving DecidableEq, Repr

/-- How a scalar variable obtains its value. -/
inductive ScalarSource where
  | register (reg : Register)
  | builtin (value : Builtin)
  | memory (base : String) (offset : Int)
  | constant (literal : String)
  | binary (op : BinaryOp) (lhs rhs : String)
  deriving DecidableEq, Repr

structure ScalarVariable where
  name : String
  type : ScalarType
  source : ScalarSource
  deriving DecidableEq, Repr

structure MapVariable where
  name : String
  structType : String
  mapName : String
  keyVariable : String
  deriving DecidableEq, Repr

structure MemberVariable where
  name : String
  type : ScalarType
  structBase : String
  baseIsPointer : Bool
  field : String
  deriving DecidableEq, Repr

structure FieldAssignment where
  fieldName : String
  variableName : String
  deriving DecidableEq, Repr

structure StructVariable where
  name : String
  structType : String
  assignments : List FieldAssignment
  deriving DecidableEq, Repr

inductive Variable where
  | scalar (v : ScalarVariable)
  | map (v : MapVariable)
  | member (v : MemberVariable)
  | struct (v : StructVariable)
  deriving DecidableEq, Repr

namespace Variable

def name : Variable → String
  | scalar v => v.name
  | map v => v.name
  | member v => v.name
  | struct v => v.name

def scalarType? : Variable → Option ScalarType
  | scalar v => some v.type
  | member v => some v.type
  | map _ | struct _ => none

def isScalar : Variable → Bool
  | scalar _ => true
  | _ => false

def isStruct : Variable → Bool
  | struct _ => true
  | _ => false

end Variable

structure StashAction where
  mapName : String
  keyVariable : String
  valueVariable : String
  cond : Condition
  deriving DecidableEq, Repr

structure DeleteAction where
  mapName : String
  keyVariable : String
  deriving DecidableEq, Repr

structure OutputAction where
  bufferName : String
  variableName : String
  deriving DecidableEq, Repr

structure Probe where
  name : String
  tracepoint : TracePoint
  vars : List Variable := []
  stashes : List StashAction := []
  deletes : List DeleteAction := []
  outputs : List OutputAction := []
  latency : Option FunctionLatency := none
  printks : List Printk := []
  deriving DecidableEq, Repr

def Probe.findVar? (probe : Probe) (name : String) : Option Variable :=
  probe.vars.find? (·.name == name)

structure Program where
  target : Target := .unnamed
  language : Language := .unknown
  structs : List Struct := []
  maps : List MapDecl := []
  outputs : List PerfBuffer := []
  probes : List Probe := []
  deriving DecidableEq, Repr

namespace Program

def findStruct? (program : Program) (name : String) : Option Struct :=
  program.structs.find? (·.name == name)

def findMap? (program : Program) (name : String) : Option MapDecl :=
  program.maps.find? (·.name == name)

def findOutput? (program : Program) (name : String) : Option PerfBuffer :=
  program.outputs.find? (·.name == name)

def findProbe? (program : Program) (name : String) : Option Probe :=
  program.probes.find? (·.name == name)

end Program

end ProbeLowering.Physical
