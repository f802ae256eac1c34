import ProbeLowering.Lowering.AccessPath
import ProbeLowering.Lowering.Expression
import ProbeLowering.Lowering.ScalarTable
import ProbeLowering.Lowering.Scope
import ProbeLowering.Number.Word

/-!
# Access chains

A field path becomes a chain of loads.  The walk keeps an address as a base
variable and an offset: a member access adds to the offset, in words of 64 bits,
and a pointer is crossed by loading it into a variable of its own, from which the
walk goes on at offset zero.
-/

namespace ProbeLowering

open DebugInfo

inductive RootBase where
  | stackPointer
  | returnRegister
  deriving DecidableEq, Repr

def frameBaseAdjustment : Int := 8

namespace RootBase

def variableName : RootBase → String
  | stackPointer => stackPointerVariable
  | returnRegister => returnRegisterVariable

def adjustment : RootBase → Int
  | stackPointer => frameBaseAdjustment
  | returnRegister => 0

end RootBase

structure ExprRoot where
  base : RootBase
  offset : Int
  kind : VarKind
  typeName : String
  deriving DecidableEq, Repr

def ExprRoot.stack (info : ArgInfo) : ExprRoot :=
  ⟨.stackPointer, info.offset, info.kind, info.typeName⟩

/-- Where a walk has come to: a value of the given kind at `base + offset`. -/
structure Walk where
  kind : VarKind
  typeName : String
  base : String
  offset : Int
  path : AccessPath
  deriving DecidableEq, Repr

namespace Walk

def start (id : String) (root : ExprRoot) : Walk where
  kind := root.kind
  typeName := root.typeName
  base := root.base.variableName
  offset := wrapInt64 (root.offset + root.base.adjustment)
  path := { root := id }

/-- Loads the pointer that the walk stands on and goes where it points. -/
def deref (language : Language) (walk : Walk) : Step Scope Walk := do
  let path := walk.path.push .deref
  let type ← .query fun _ => resolveScalarType language .pointer walk.typeName
  Scope.addScalar path.display type (.memory walk.base walk.offset)
  pure { walk with base := path.display, offset := 0, path }

def crossPointer (language : Language) (walk : Walk) : Step Scope Walk :=
  if walk.kind = .pointer then walk.deref language else pure walk

def enterMember (walk : Walk) (field : String) (info : MemberInfo) : Walk where
  kind := info.kind
  typeName := info.typeName
  base := walk.base
  offset := wrapInt64 (walk.offset + info.offset)
  path := walk.path.push (.field field)

def enterField (setting : Setting) (walk : Walk) (field : String) :
    Step Scope Walk := do
  let walk ← walk.crossPointer setting.language
  let info ← .query fun _ =>
    (setting.facts.member walk.typeName field).mapError .debugInfo
  pure (walk.enterMember field info)

def enterFields (setting : Setting) (walk : Walk) : List String → Step Scope Walk
  | [] => pure walk
  | field :: rest => do
      let walk ← walk.enterField setting field
      walk.enterFields setting rest

/-- A trailing pointer is read through: what it points to is traced. -/
def readThrough (language : Language) (walk : Walk) : Step Scope Walk := do
  if walk.kind = .pointer then
    let walk ← walk.deref language
    pure { walk with kind := .base }
  else pure walk

end Walk

/-- Emits the loads of `root.fields`, the last of them under the name `id`. -/
def lowerAccessChain (setting : Setting) (id : String) (root : ExprRoot)
    (fields : List String) : Step Scope Unit := do
  let walk ← (Walk.start id root).enterFields setting fields
  let walk ← walk.readThrough setting.language
  let type ← .query fun _ =>
    resolveScalarType setting.language walk.kind walk.typeName
  Scope.addScalar id type (.memory walk.base walk.offset)

def Setting.argInfo (setting : Setting) (name : String) : Step Scope ArgInfo :=
  .query fun scope =>
    match setting.args.get? name with
    | some info => .ok info
    | none => .error (.unknownArgument scope.symbol name)

def lowerArgument (setting : Setting) (arg : Logical.Argument) : Step Scope Unit :=
  match Expression.parse? arg.expr with
  | none => throw (.emptyExpression .argument arg.id)
  | some expr => do
      let info ← setting.argInfo expr.root
      lowerAccessChain setting arg.id (.stack info) expr.fields

end ProbeLowering
