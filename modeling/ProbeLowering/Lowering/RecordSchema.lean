import ProbeLowering.Logical
import ProbeLowering.Lowering.SymbolTable
import ProbeLowering.Physical

/-!
# Record schemas

Layouts of the records that are stored in maps and sent to outputs.  A stash
stores one field per variable; an event starts with the columns that identify
its process and time.
-/

namespace ProbeLowering

open Physical (Struct StructField)

def structTypeName (name : String) : String := name ++ "_value_t"

/-- Columns that every event of a program in this language starts with. -/
def implicitColumns (language : Language) : List String :=
  let common := [Builtin.tgid, Builtin.tgidStartTime, Builtin.ktime]
  let all := if language = .go then common ++ [.goid] else common
  all.map Builtin.variableName

/-- A field per pair, typed by the variable that it is written from. -/
def schemaFields (symbols : SymbolTable) (owner : String) :
    List (String × String) → Except LowerError (List StructField)
  | [] => .ok []
  | (field, source) :: rest =>
      match symbols.requireScalar owner source with
      | .error e => .error e
      | .ok type =>
          match schemaFields symbols owner rest with
          | .error e => .error e
          | .ok fields => .ok (⟨field, type⟩ :: fields)

def mapValueStruct (action : Logical.StashAction) (symbols : SymbolTable) :
    Except LowerError Struct :=
  (schemaFields symbols action.mapName
      (action.valueVariables.map fun name => (name, name))).map
    fun fields => ⟨structTypeName action.mapName, fields⟩

def outputStruct (action : Logical.OutputAction) (outputFields columns : List String)
    (symbols : SymbolTable) : Except LowerError Struct :=
  if action.valueVariables.length ≠ outputFields.length then
    .error (.outputFieldCountMismatch action.outputName action.valueVariables.length
      outputFields.length)
  else
    (schemaFields symbols action.outputName
        (columns.map (fun column => (column, column)) ++
          outputFields.zip action.valueVariables)).map
      fun fields => ⟨structTypeName action.outputName, fields⟩

end ProbeLowering
