import ProbeLowering.NameMap

/-!
# Debug facts

Lowering asks three questions about a binary: where the arguments of a
function are, what a function returns, and where a member of a record is.
`Facts` is anything that answers them.
-/

namespace ProbeLowering.DebugInfo

inductive VarKind where
  | base
  | pointer
  | struct
  | void
  deriving DecidableEq, Repr

namespace VarKind

def display : VarKind → String
  | base => "BaseType"
  | pointer => "Pointer"
  | struct => "Struct"
  | void => "Void"

end VarKind

structure ArgInfo where
  offset : Int
  kind : VarKind
  typeName : String
  deriving DecidableEq, Repr

structure MemberInfo where
  offset : Int
  kind : VarKind
  typeName : String
  deriving DecidableEq, Repr

structure RetValInfo where
  kind : VarKind := .void
  typeName : String := ""
  deriving DecidableEq, Repr

inductive InvalidReason where
  | unsupportedTag (tag : String)
  | deepTypeChain (limit offset : Nat)
  | unsupportedReference (form : String)
  | other (text : String)
  deriving DecidableEq, Repr

def InvalidReason.message : InvalidReason → String
  | unsupportedTag tag => s!"unsupported type tag {tag}"
  | deepTypeChain limit offset =>
      s!"type chain deeper than {limit} at UnitOffset({offset})"
  | unsupportedReference form => s!"unsupported type reference form: {form}"
  | other text => text

inductive LookupError where
  | io (detail : String)
  | malformed (detail : String)
  | notAnObject (detail : String)
  | noDebugInfo (path : String)
  | functionNotFound (symbol : String)
  | structNotFound (typeName : String)
  | memberNotFound (typeName field : String)
  | invalid (reason : InvalidReason)
  deriving DecidableEq, Repr

namespace LookupError

/-- The binary was readable and lacks what was asked for. -/
def isNotFound : LookupError → Bool
  | functionNotFound _ | structNotFound _ | memberNotFound _ _ => true
  | _ => false

def message : LookupError → String
  | io detail => s!"IO error: {detail}"
  | malformed detail => s!"DWARF parsing error: {detail}"
  | notAnObject detail => s!"Object file error: {detail}"
  | noDebugInfo path => s!"No DWARF debug info in {path}"
  | functionNotFound symbol => s!"Function not found: {symbol}"
  | structNotFound typeName => s!"Struct type not found: {typeName}"
  | memberNotFound typeName field =>
      s!"Member '{field}' not found in struct {typeName}"
  | invalid reason => s!"Invalid DWARF data: {reason.message}"

def chain (error : LookupError) : List String :=
  match error with
  | io detail | malformed detail | notAnObject detail => [error.message, detail]
  | _ => [error.message]

end LookupError

structure Facts where
  args : String → Except LookupError (NameMap ArgInfo)
  retval : String → Except LookupError RetValInfo
  member : String → String → Except LookupError MemberInfo

end ProbeLowering.DebugInfo
