/-!
# Vocabulary of the two programs

The logical program says what to trace by name; the physical program says
where each value is read.  Both speak of the notions of this file: the language
of the traced binary, the scalar types and built-in values that a probe can
transport, and the declarations that pass through lowering unchanged.
-/

namespace ProbeLowering

inductive Language where
  | unknown
  | go
  | c
  | cpp
  deriving DecidableEq, Repr

namespace Language

/-- Results of a call lie in stack slots after the arguments. -/
def returnsOnStack : Language → Bool
  | go => true
  | _ => false

def returnsInRegister : Language → Bool
  | c | cpp => true
  | _ => false

def display : Language → String
  | unknown => "unknown"
  | go => "go"
  | c => "c"
  | cpp => "c++"

end Language

/-- Type under which a scalar value is transported. -/
inductive ScalarType where
  | bool
  | short
  | ushort
  | int
  | uint
  | long
  | ulong
  | longLong
  | ulongLong
  | char
  | uchar
  | int8
  | int16
  | int32
  | int64
  | uint8
  | uint16
  | uint32
  | uint64
  | float
  | double
  | voidPointer
  | string
  | byteArray
  deriving DecidableEq, Repr

/-- Value that the tracing runtime supplies, whatever the traced function does. -/
inductive Builtin where
  | goid
  | tgid
  | tgidPid
  | tgidStartTime
  | ktime
  deriving DecidableEq, Repr

namespace Builtin

def variableName : Builtin → String
  | goid => "goid_"
  | tgid => "tgid_"
  | tgidPid => "tgid_pid_"
  | tgidStartTime => "tgid_start_time_"
  | ktime => "time_"

def display : Builtin → String
  | goid => "Goid"
  | tgid => "Tgid"
  | tgidPid => "TgidPid"
  | tgidStartTime => "TgidStartTime"
  | ktime => "Ktime"

end Builtin

def stackPointerVariable : String := "sp_"

def returnRegisterVariable : String := "rc_"

def startTimeVariable : String := "start_ktime_ns"

inductive ProbeKind where
  | entry
  | onReturn
  deriving DecidableEq, Repr

structure TracePoint where
  symbol : String
  kind : ProbeKind := .entry
  deriving DecidableEq, Repr

def TracePoint.isReturn (point : TracePoint) : Bool :=
  point.kind == .onReturn

structure Target where
  path : String
  deriving DecidableEq, Repr

def Target.unnamed : Target := ⟨""⟩

/--
Map shared between probes.  A declaration usually leaves both types open; the
first stash into the map settles them.
-/
structure MapDecl where
  name : String
  keyType : Option ScalarType := none
  valueStruct : Option String := none
  deriving DecidableEq, Repr

structure FunctionLatency where
  id : String
  deriving DecidableEq, Repr

inductive ConditionOp where
  | nil
  | equal
  deriving DecidableEq, Repr

structure Condition where
  op : ConditionOp := .nil
  vars : List String := []
  deriving DecidableEq, Repr

inductive BinaryOp where
  | sub
  deriving DecidableEq, Repr

inductive Printk where
  | text (line : String)
  | scalar (name : String)
  deriving DecidableEq, Repr

end ProbeLowering
