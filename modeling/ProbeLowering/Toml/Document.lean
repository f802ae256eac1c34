import ProbeLowering.Toml.Values

/-!
# Documents

Statements build a document from the top: entries before the first header
belong to the root, and the others to the table of the last header.  A table is
defined once, by its header or by dotted keys; a header may still claim a table
that only exists because of tables below it, which then moves to the end of the
table that holds it.  Of several problems, the one of the first statement counts.
-/

namespace ProbeLowering.Toml

def changeLast (change : Entries → Except Problem Entries) :
    List Item → Except Problem (List Item)
  | [] => .ok []
  | [.table origin entries] => do return [.table origin (← change entries)]
  | item :: rest => do return item :: (← changeLast change rest)

/--
Changes the table that the path of the statement at `start` leads to, and makes
the tables on the way that do not exist.  `origin` is theirs.  A dotted key leads
into no table with a header; `change` is told whether the last table was made by
a dotted key.
-/
def changeBelow (start : Nat) (origin : TableOrigin)
    (change : Bool → Entries → Except Problem Entries) (isDotted : Bool) :
    List Key → Entries → Except Problem Entries
  | [], entries => change isDotted entries
  | step :: path, entries =>
      match entries.item? step.name with
      | none => do
          let below ← changeBelow start origin change (origin = .dotted) path []
          return entries ++ [(step, .table origin below)]
      | some (.table found below) => do
          if origin = .dotted ∧ found.start?.isSome then duplicate start step
          let below ← changeBelow start origin change (found = .dotted) path below
          return entries.replace step.name (.table found below)
      | some (.tables items) => do
          let items ← changeLast (changeBelow start origin change false path) items
          return entries.replace step.name (.tables items)
      | some _ => duplicate start step

def addKeyValue (entries : Entries) (kv : KeyValue) : Except Problem Entries :=
  changeBelow kv.start .dotted (fun isDotted table => do
    if isDotted = kv.path.isEmpty then duplicate kv.start kv.key
    match table.item? kv.key.name with
    | some _ => duplicate kv.start kv.key
    | none => return table ++ [(kv.key, kv.item)]) false kv.path entries

structure Section where
  start : Nat
  path : List Key
  key : Key
  inArray : Bool
  body : List KeyValue

/-- What a table header may claim: nothing yet, or a table that was only implied. -/
def claimed (start : Nat) (key : Key) (entries : Entries) : Except Problem Entries :=
  match entries.item? key.name with
  | none => .ok []
  | some (.table .implied below) => .ok below
  | some _ => duplicate start key

def claimedTables (start : Nat) (key : Key) (entries : Entries) :
    Except Problem (Option (List Item)) :=
  match entries.item? key.name with
  | none => .ok none
  | some (.tables items) => .ok (some items)
  | some _ => duplicate start key

def addTable (sect : Section) (entries : Entries) : Except Problem Entries := do
  let below ← claimed sect.start sect.key entries
  let table ← sect.body.foldlM addKeyValue below
  return entries.without sect.key.name ++
    [(sect.key, .table (.header sect.start) table)]

def addArrayTable (sect : Section) (entries : Entries) : Except Problem Entries := do
  let items? ← claimedTables sect.start sect.key entries
  let table ← sect.body.foldlM addKeyValue []
  let item : Item := .table (.header sect.start) table
  match items? with
  | none => return entries ++ [(sect.key, .tables [item])]
  | some items => return entries.replace sect.key.name (.tables (items ++ [item]))

def addSection (root : Entries) (sect : Section) : Except Problem Entries :=
  let add := if sect.inArray then addArrayTable sect else addTable sect
  changeBelow sect.start .implied (fun _ table => add table) false sect.path root

def sections : List Statement → List KeyValue × List Section
  | [] => ([], [])
  | .keyValue kv :: rest =>
      let (body, later) := sections rest
      (kv :: body, later)
  | .header start path key inArray :: rest =>
      let (body, later) := sections rest
      ([], ⟨start, path, key, inArray, body⟩ :: later)

def ofStatements (statements : List Statement) : Except Problem Entries := do
  let (body, later) := sections statements
  let root ← body.foldlM addKeyValue []
  later.foldlM addSection root

def parse (text : String) : Except Problem Entries := do
  let (statements, problem?) := Read.text (Source.ofString text)
  let root ← ofStatements statements
  match problem? with
  | some problem => .error problem
  | none => return root

end ProbeLowering.Toml
