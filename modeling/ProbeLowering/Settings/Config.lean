import ProbeLowering.Number.Shortest
import ProbeLowering.Settings.LogLevel
import ProbeLowering.Text.Lines
import ProbeLowering.Text.Quoted
import ProbeLowering.Toml.Document

/-!
# Configuration files

A file may set what the sections `general` and `output` hold; what it leaves
out has a default, and what it holds besides is passed over.  A section may
also be written as an array of its values in order.  A value that does not fit
is reported at the place where it is written.
-/

namespace ProbeLowering

structure GeneralConfig where
  logFile : String := "tracelift.log"
  enableLogging : Bool := false
  logLevel : LogLevel := .warn
  deriving DecidableEq, Repr

structure OutputConfig where
  pretty : Bool := true
  deriving DecidableEq, Repr

structure Config where
  general : GeneralConfig := {}
  output : OutputConfig := {}
  deriving DecidableEq, Repr

namespace Config

open Toml (Item Entries Key)

inductive Mismatch where
  | wrongType (found : String) (expected : String)
  | unknownLevel (name : String)
  | levelOfOtherType
  | levelTableEmpty
  | levelTableTooLong
  | levelBodyNotEmpty
  | levelBodyTables
  | levelBodyNoTable (kind : String)
  | malformed (problem : Toml.ProblemKind)
  deriving DecidableEq, Repr

def Mismatch.message : Mismatch → String
  | wrongType found expected => s!"invalid type: {found}, expected {expected}"
  | unknownLevel name =>
      s!"unknown variant \x60{name}\x60, expected one of " ++
        ", ".intercalate (LogLevel.all.map fun level => s!"\x60{level.name}\x60")
  | levelOfOtherType => "wanted string or table"
  | levelTableEmpty => "wanted exactly 1 element, found 0 elements"
  | levelTableTooLong => "wanted exactly 1 element, more than 1 element"
  | levelBodyNotEmpty => "expected empty table"
  | levelBodyTables => "expected empty array"
  | levelBodyNoTable kind => s!"expected table, found {kind}"
  | malformed problem => problem.message

/-- A value that does not fit, and the byte at which it is written. -/
structure Fault where
  mismatch : Mismatch
  position : Nat
  deriving DecidableEq, Repr

abbrev Decoded (α : Type) := Except Fault α

def positionOf (key : Nat) (item : Item) : Nat := item.start?.getD key

def describe : Item → String
  | .scalar _ (.string value) => s!"string {Text.quoted value}"
  | .scalar _ (.integer value) => s!"integer \x60{value}\x60"
  | .scalar _ (.float value) => s!"floating point \x60{value.display}\x60"
  | .scalar _ (.boolean value) => s!"boolean \x60{value}\x60"
  | .scalar _ .datetime => "map"
  | .array _ _ | .tables _ => "sequence"
  | .inlineTable _ _ | .table _ _ => "map"

def wrongType {α : Type} (key : Nat) (item : Item) (expected : String) : Decoded α :=
  .error ⟨.wrongType (describe item) expected, positionOf key item⟩

def decodeString (key : Nat) : Item → Decoded String
  | .scalar _ (.string value) => .ok value
  | item => wrongType key item "a string"

def decodeBool (key : Nat) : Item → Decoded Bool
  | .scalar _ (.boolean value) => .ok value
  | item => wrongType key item "a boolean"

def levelNamed (name : String) (position : Nat) : Decoded LogLevel :=
  match LogLevel.ofName? name with
  | some level => .ok level
  | none => .error ⟨.unknownLevel name, position⟩

def emptyBody : Item → Except Mismatch Unit
  | .array _ [] | .inlineTable _ [] | .table _ [] => .ok ()
  | .array _ _ | .inlineTable _ _ | .table _ _ => .error .levelBodyNotEmpty
  | .tables _ => .error .levelBodyTables
  | item => .error (.levelBodyNoTable item.kindName)

/-- A level may be the only key of a table; nothing stands under it. -/
def decodeLevelTable (position : Nat) : Entries → Decoded LogLevel
  | [] => .error ⟨.levelTableEmpty, position⟩
  | [(key, body)] => do
      let level ← levelNamed key.name key.start
      (emptyBody body).mapError fun mismatch => ⟨mismatch, positionOf position body⟩
      pure level
  | _ => .error ⟨.levelTableTooLong, position⟩

def decodeLevel (key : Nat) (item : Item) : Decoded LogLevel :=
  match item with
  | .scalar start (.string name) => levelNamed name start
  | item =>
      match item.entries? with
      | some entries => decodeLevelTable (positionOf key item) entries
      | none => .error ⟨.levelOfOtherType, positionOf key item⟩

/--
The values of a section by their names, each with the place of its key.  A date
holds none of them, and an array gives them in the order of `names`.
-/
def fields (names : List String) (what : String) (key : Nat) (item : Item) :
    Decoded (List (String × Nat × Item)) :=
  match item.entries?, item.items?, item with
  | some entries, _, _ =>
      .ok (entries.map fun (key, item) => (key.name, key.start, item))
  | none, some items, _ =>
      .ok ((names.zip items).map fun (name, item) => (name, positionOf key item, item))
  | none, none, .scalar _ .datetime => .ok []
  | none, none, _ => wrongType key item s!"struct {what}"

def setGeneral (config : GeneralConfig) (field : String × Nat × Item) :
    Decoded GeneralConfig :=
  let (name, key, item) := field
  match name with
  | "log_file" => do return { config with logFile := ← decodeString key item }
  | "enable_logging" => do return { config with enableLogging := ← decodeBool key item }
  | "log_level" => do return { config with logLevel := ← decodeLevel key item }
  | _ => .ok config

def decodeGeneral (key : Nat) (item : Item) : Decoded GeneralConfig := do
  (← fields ["log_file", "enable_logging", "log_level"] "GeneralConfig" key item).foldlM
    setGeneral {}

def setOutput (config : OutputConfig) (field : String × Nat × Item) :
    Decoded OutputConfig :=
  let (name, key, item) := field
  match name with
  | "pretty" => do return { config with pretty := ← decodeBool key item }
  | _ => .ok config

def decodeOutput (key : Nat) (item : Item) : Decoded OutputConfig := do
  (← fields ["pretty"] "OutputConfig" key item).foldlM setOutput {}

def setSection (config : Config) (entry : Key × Item) : Decoded Config :=
  let (key, item) := entry
  match key.name with
  | "general" => do return { config with general := ← decodeGeneral key.start item }
  | "output" => do return { config with output := ← decodeOutput key.start item }
  | _ => .ok config

def ofEntries (root : Entries) : Decoded Config := root.foldlM setSection {}

def parse (text : String) : Decoded Config :=
  match Toml.parse text with
  | .error problem => .error ⟨.malformed problem.kind, problem.position⟩
  | .ok root => ofEntries root

/-! ## Reports -/

def mentions (text words : String) : Bool := (text.splitOn words).length > 1

def suggestion (message : String) : String :=
  if mentions message "unknown variant" then
    "Valid log levels are: " ++
      ", ".intercalate (LogLevel.all.map fun level => s!"'{level.name}'")
  else if mentions message "unknown field" then
    "Check the field name spelling and ensure it's in the correct section"
  else if mentions message "invalid type" then
    "Check the value type - strings should be in quotes, booleans should not"
  else "Please check the configuration file syntax"

/-- The message with the line that the byte is on, a mark below its place, and a suggestion. -/
def reportAt (path text message : String) (position : Nat) : String :=
  let place := Text.placeOf text position
  let line := String.ofList (Text.lineAt text.toList place.line)
  let mark := String.ofList (List.replicate place.column ' ' ++ ['^'])
  s!"Configuration file parsing error in '{path}'\n\n" ++
    s!"Error at line {place.line + 1}, column {place.column + 1}:\n" ++
    s!"{message}\n\n{line}\n{mark}\n\n" ++
    s!"Suggestion: {suggestion message}"

def report (path text : String) (fault : Fault) : String :=
  reportAt path text fault.mismatch.message fault.position

end Config

end ProbeLowering
