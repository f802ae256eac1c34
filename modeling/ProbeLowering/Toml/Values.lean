import ProbeLowering.Toml.Scalars

/-!
# Keys, values and statements

A text is a sequence of statements: entries and headers, one a line.  Values
may be nested up to a fixed depth, and keys may have as many parts.
-/

namespace ProbeLowering.Toml

structure KeyValue where
  path : List Key
  key : Key
  item : Item

def KeyValue.start (kv : KeyValue) : Nat := (kv.path.headD kv.key).start

inductive Statement where
  | keyValue (keyValue : KeyValue)
  /-- A table header; double brackets add a table to an array. -/
  | header (start : Nat) (path : List Key) (key : Key) (inArray : Bool)

def depthLimit : Nat := 80

def duplicate {α : Type} (start : Nat) (key : Key) : Except Problem α :=
  .error ⟨.duplicateKey key.name, start⟩

/-- Adds an entry below tables that dotted keys made; other tables are closed. -/
def addInline (start : Nat) (key : Key) (item : Item) :
    List Key → Entries → Except Problem Entries
  | [], entries =>
      match entries.item? key.name with
      | some _ => duplicate start key
      | none => .ok (entries ++ [(key, item)])
  | step :: path, entries =>
      match entries.item? step.name with
      | none => do
          let below ← addInline start key item path []
          return entries ++ [(step, .inlineTable none below)]
      | some (.inlineTable none below) => do
          let below ← addInline start key item path below
          return entries.replace step.name (.inlineTable none below)
      | some _ => duplicate start step

def inlineEntries (start : Nat) (keyValues : List KeyValue) : Except Problem Entries :=
  keyValues.foldlM (fun entries kv => addInline start kv.key kv.item kv.path entries) []

namespace Read

def isBareKeyChar (c : Char) : Bool := c.isAlphanum || c = '_' || c = '-'

def bareKey : Read String := do
  let name ← takeWhile isBareKeyChar
  if name.isEmpty then expected "a key"
  pure (String.ofList name)

def keyPart : Read Key := do
  blanks
  let start ← position
  let name ← match ← peek? with
    | some '"' => basicString
    | some '\'' => literalString
    | _ => bareKey
  blanks
  pure ⟨name, start⟩

def keyParts : Nat → Read (List Key × Key)
  | 0 => fail .unexpectedEnd
  | n + 1 => do
      let part ← keyPart
      if ← literal? "." then
        let (path, key) ← keyParts n
        pure (part :: path, key)
      else pure ([], part)

def dottedKey : Read (List Key × Key) := do
  let (path, key) ← keyParts (← bound)
  if depthLimit ≤ path.length + 1 then fail .tooDeep
  pure (path, key)

def keyValue (value : Read Item) : Read KeyValue := do
  let (path, key) ← dottedKey
  literal "="
  blanks
  let item ← value
  blanks
  pure ⟨path, key, item⟩

def arrayItems (value : Read Item) : Nat → Read (List Item)
  | 0 => fail .unexpectedEnd
  | n + 1 => do
      gaps
      if ← literal? "]" then return []
      let item ← value
      gaps
      if ← literal? "," then
        return item :: (← arrayItems value n)
      literal "]"
      pure [item]

def startsKey (c : Char) : Bool := c = '"' || c = '\'' || isBareKeyChar c

/-- Entries with commas between them; a comma that no key follows is left. -/
def inlineKeyValues (value : Read Item) : Nat → Read (List KeyValue)
  | 0 => fail .unexpectedEnd
  | n + 1 => do
      let first ← keyValue value
      let behind ← get
      if ← literal? "," then
        blanks
        if (← peek?).any startsKey then
          return first :: (← inlineKeyValues value n)
      set behind
      pure [first]

/-- Entries up to the closing brace.  That it is missing only shows behind them. -/
def inlineTable (value : Read Item) : Read Entries := do
  let start ← position
  blanks
  if ← literal? "\x7d" then return []
  let keyValues ← inlineKeyValues value (← bound)
  match inlineEntries start keyValues with
  | .ok entries => do
      literal "\x7d"
      pure entries
  | .error problem => throw problem

def valueWithin : Nat → Read Item
  | 0 => fail .tooDeep
  | depth + 1 => do
      let start ← position
      match ← peek? with
      | some '[' => do
          if depth = 0 then fail .tooDeep
          drop 1
          return .array start (← arrayItems (valueWithin depth) (← bound))
      | some '\x7b' => do
          if depth = 0 then fail .tooDeep
          drop 1
          return .inlineTable (some start) (← inlineTable (valueWithin depth))
      | some '"' | some '\'' => return .scalar start (.string (← string))
      | _ => return .scalar start (← scalar)

def value : Read Item := valueWithin depthLimit

def header : Read Statement := do
  let start ← position
  drop 1
  let inArray ← literal? "["
  let (path, key) ← dottedKey
  literal (if inArray then "]]" else "]")
  pure (.header start path key inArray)

def statementFrom? : Nat → Read (Option Statement)
  | 0 => fail .unexpectedEnd
  | n + 1 => do
      blanks
      match ← peek? with
      | none => pure none
      | some '#' | some '\n' | some '\r' => do
          lineEnd
          statementFrom? n
      | some '[' => do
          let statement ← header
          lineEnd
          return some statement
      | some _ => do
          let statement ← keyValue value
          lineEnd
          return some (.keyValue statement)

def statement? : Read (Option Statement) := do statementFrom? (← bound)

/-- Statements up to the end of the text, or else up to the first problem. -/
def statements : Nat → Source → List Statement × Option Problem
  | 0, source => ([], some ⟨.unexpectedEnd, source.position⟩)
  | n + 1, source =>
      match statement?.run source with
      | .error problem => ([], some problem)
      | .ok (none, _) => ([], none)
      | .ok (some statement, source) =>
          let (later, problem?) := statements n source
          (statement :: later, problem?)

/-- A text may start with a byte order mark. -/
def text (source : Source) : List Statement × Option Problem :=
  match (literal? "\ufeff").run source with
  | .error problem => ([], some problem)
  | .ok (_, source) => statements (source.rest.length + 1) source

end Read

end ProbeLowering.Toml
