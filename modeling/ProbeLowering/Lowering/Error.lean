import ProbeLowering.DebugInfo.Facts
import ProbeLowering.Vocabulary

/-!
# Lowering errors

Every error says what is wrong as data; `message` is the only place where it
becomes text.  An error raised inside a probe carries the name of that probe
exactly once.
-/

namespace ProbeLowering

open DebugInfo

/-- Who has to act on an error. -/
inductive ErrorKind where
  | user
  | notFound
  | internal
  deriving DecidableEq, Repr

inductive ExprRole where
  | argument
  | returnValue
  deriving DecidableEq, Repr

def ExprRole.display : ExprRole → String
  | argument => "Argument"
  | returnValue => "ReturnValue"

inductive LowerError where
  | tracepointCount (count : Nat)
  | emptyExpression (role : ExprRole) (id : String)
  | invalidReturnExpression (expr : String)
  | unsupportedReturnIndex (language : Language) (index : Nat)
  | outputFieldCountMismatch (output : String) (given fields : Nat)
  | mapValueCountMismatch (map : String) (requested fields : Nat)
  | structTypeConflict (name existing expected : String)
  | duplicateVariable (name : String)
  | builtinNotFound (helper : Builtin)
  | unresolvedBaseType (language : Language) (typeName : String)
  | unhandledType (kind : VarKind) (typeName : String)
  | unknownArgument (symbol name : String)
  | undeclaredMap (map : String)
  | undeclaredOutput (output : String)
  | undeclaredStruct (name : String)
  | unknownVariable (owner name : String)
  | voidReturnValue (symbol : String)
  | unsupportedReturnLanguage (language : Language)
  | debugInfo (error : LookupError)
  | inProbe (probe : String) (source : LowerError)
  deriving DecidableEq, Repr

namespace LowerError

def kind : LowerError → ErrorKind
  | tracepointCount _ | emptyExpression _ _ | invalidReturnExpression _
  | unsupportedReturnIndex _ _ | outputFieldCountMismatch _ _ _
  | mapValueCountMismatch _ _ _ | structTypeConflict _ _ _
  | duplicateVariable _ => .user
  | builtinNotFound _ => .notFound
  | unresolvedBaseType _ _ | unhandledType _ _ | unknownArgument _ _
  | undeclaredMap _ | undeclaredOutput _ | undeclaredStruct _
  | unknownVariable _ _ | voidReturnValue _ | unsupportedReturnLanguage _ =>
      .internal
  | debugInfo error => if error.isNotFound then .notFound else .internal
  | inProbe _ source => source.kind

def exitCode (error : LowerError) : Nat :=
  match error.kind with
  | .user => 2
  | .notFound => 3
  | .internal => 4

/-- Attaches the probe, unless one is attached already. -/
def atProbe (error : LowerError) (probe : String) : LowerError :=
  match error with
  | inProbe p source => inProbe p source
  | other => inProbe probe other

def probe? : LowerError → Option String
  | inProbe probe _ => some probe
  | _ => none

def rootCause : LowerError → LowerError
  | inProbe _ source => source.rootCause
  | other => other

def message : LowerError → String
  | tracepointCount count =>
      s!"Only exactly 1 tracepoint is supported, got {count}"
  | emptyExpression role id =>
      s!"{role.display} '{id}' expression cannot be empty"
  | invalidReturnExpression expr =>
      s!"ReturnValue expression '{expr}' is invalid, " ++
        "first component must be \x60$<index>\x60"
  | unsupportedReturnIndex language index =>
      s!"{language.display} only supports a single return value [index={index}]"
  | outputFieldCountMismatch output given fields =>
      s!"OutputAction to '{output}' writes {given} variables, " ++
        s!"but the output has {fields} fields"
  | mapValueCountMismatch map requested fields =>
      s!"Map read from '{map}' unpacks {requested} values, " ++
        s!"but its struct has {fields} fields"
  | structTypeConflict name existing expected =>
      s!"'{name}' has struct type '{existing}', which should be '{expected}'"
  | duplicateVariable name => s!"Variable '{name}' is declared more than once"
  | builtinNotFound helper =>
      s!"Builtin {helper.display} does not have a variable in this probe"
  | unresolvedBaseType language typeName =>
      s!"Unrecognized base type '{typeName}' for language {language.display}"
  | unhandledType kind typeName =>
      s!"Unhandled type: {kind.display} (name={typeName})"
  | unknownArgument symbol name =>
      s!"Could not find argument '{name}' of function {symbol}"
  | undeclaredMap map => s!"Reference to undeclared map: {map}"
  | undeclaredOutput output => s!"Reference to undeclared output: {output}"
  | undeclaredStruct name => s!"Reference to undeclared struct: {name}"
  | unknownVariable owner name =>
      s!"[{owner}] Reference to unknown variable: {name}"
  | voidReturnValue symbol =>
      "Attempting to process return variable for function with void return: "
        ++ symbol
  | unsupportedReturnLanguage language =>
      s!"Return expressions not yet supported for language {language.display}"
  | debugInfo error => s!"Debug info lookup failed: {error.message}"
  | inProbe probe source => s!"Probe '{probe}': {source.message}"

def chain : LowerError → List String
  | debugInfo error => s!"Debug info lookup failed: {error.message}" :: error.chain
  | inProbe probe source => s!"Probe '{probe}': {source.message}" :: source.chain
  | other => [other.message]

end LowerError

end ProbeLowering
