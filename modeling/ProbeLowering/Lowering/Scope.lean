import ProbeLowering.Logical
import ProbeLowering.Lowering.Step
import ProbeLowering.Lowering.SymbolTable
import ProbeLowering.Physical

/-!
# Probe scopes

A `Scope` is a physical probe under construction together with the symbol
table of its variables.  Every variable enters both at once.  The `Setting` is
what the probe is lowered against.
-/

namespace ProbeLowering

open DebugInfo
open Physical (Variable ScalarSource)

structure Setting where
  facts : Facts
  language : Language
  args : NameMap ArgInfo
  retval : RetValInfo

/-- Looks up the traced function, its arguments before its result. -/
def Setting.ofSymbol (facts : Facts) (language : Language) (symbol : String) :
    Except LowerError Setting :=
  match facts.args symbol with
  | .error e => .error (.debugInfo e)
  | .ok args =>
      match facts.retval symbol with
      | .error e => .error (.debugInfo e)
      | .ok retval => .ok ⟨facts, language, args, retval⟩

structure Scope where
  symbols : SymbolTable := .empty
  probe : Physical.Probe
  deriving DecidableEq, Repr

namespace Scope

def start (name : String) (tracepoint : TracePoint) : Scope where
  probe := { name, tracepoint }

def symbol (scope : Scope) : String := scope.probe.tracepoint.symbol

def symbolOf (v : Variable) : Symbol :=
  match v.scalarType? with
  | some type => .scalar type
  | none => .aggregate

def add (scope : Scope) (v : Variable) : Except LowerError Scope :=
  match scope.symbols.declare v.name (symbolOf v) with
  | .error e => .error e
  | .ok symbols =>
      .ok ⟨symbols, { scope.probe with vars := scope.probe.vars ++ [v] }⟩

def addVariable (v : Variable) : Step Scope Unit :=
  .update fun scope => scope.add v

def addScalar (name : String) (type : ScalarType) (source : ScalarSource) :
    Step Scope Unit :=
  addVariable (.scalar ⟨name, type, source⟩)

def keyVariable (helper : Builtin) : Step Scope String :=
  .query fun scope =>
    if scope.symbols.contains helper.variableName then .ok helper.variableName
    else .error (.builtinNotFound helper)

def addBuiltin (helper : Builtin) (type : ScalarType) : Step Scope Unit :=
  addScalar helper.variableName type (.builtin helper)

def addSpecialVariables (language : Language) : Step Scope Unit := do
  addScalar stackPointerVariable .voidPointer (.register .sp)
  addBuiltin .tgid .int32
  addBuiltin .tgidPid .uint64
  addBuiltin .tgidStartTime .uint64
  addBuiltin .ktime .uint64
  if language = .go then
    addBuiltin .goid .int64
  if (← get).probe.tracepoint.isReturn && language.returnsInRegister then
    addScalar returnRegisterVariable .voidPointer (.register .rc)

def addConstant (constant : Logical.Constant) : Step Scope Unit :=
  addScalar constant.name constant.type (.constant constant.value)

/-- The latency is the present time less the entry time. -/
def addLatency (latency : FunctionLatency) : Step Scope Unit := do
  addScalar latency.id .int64
    (.binary .sub Builtin.ktime.variableName startTimeVariable)
  modify fun scope =>
    { scope with probe := { scope.probe with latency := some latency } }

end Scope

end ProbeLowering
