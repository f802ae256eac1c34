import ProbeLowering.Number.Binary64

/-!
# TOML trees

A document is a table: keys with items, in the order in which they came to
stand there.  Keys and items know the byte at which they were written.  Tables
that only exist because of what lies below them were written nowhere.
-/

namespace ProbeLowering.Toml

structure Key where
  name : String
  start : Nat
  deriving DecidableEq, Repr

inductive Scalar where
  | string (value : String)
  | integer (value : Int)
  | float (value : Binary64)
  | boolean (value : Bool)
  | datetime
  deriving DecidableEq, Repr

inductive TableOrigin where
  /-- By its own header. -/
  | header (start : Nat)
  /-- By a dotted key. -/
  | dotted
  /-- By the header of a table below it. -/
  | implied
  deriving DecidableEq, Repr

inductive Item where
  | scalar (start : Nat) (value : Scalar)
  | array (start : Nat) (items : List Item)
  /-- Without a place, it exists because of a dotted key. -/
  | inlineTable (start? : Option Nat) (entries : List (Key × Item))
  | table (origin : TableOrigin) (entries : List (Key × Item))
  /-- The tables of a double header, of which there is at least one. -/
  | tables (items : List Item)

abbrev Entries := List (Key × Item)

def TableOrigin.start? : TableOrigin → Option Nat
  | header start => some start
  | dotted | implied => none

namespace Item

def start? : Item → Option Nat
  | scalar start _ | array start _ => some start
  | inlineTable start? _ => start?
  | table origin _ => origin.start?
  | tables (table origin _ :: _) => origin.start?
  | tables _ => none

def kindName : Item → String
  | scalar _ (.string _) => "string"
  | scalar _ (.integer _) => "integer"
  | scalar _ (.float _) => "float"
  | scalar _ (.boolean _) => "boolean"
  | scalar _ .datetime => "datetime"
  | array _ _ => "array"
  | inlineTable _ _ => "inline table"
  | table _ _ => "table"
  | tables _ => "array of tables"

def entries? : Item → Option Entries
  | inlineTable _ entries | table _ entries => some entries
  | _ => none

def items? : Item → Option (List Item)
  | array _ items | tables items => some items
  | _ => none

end Item

namespace Entries

def item? (entries : Entries) (name : String) : Option Item :=
  (List.find? (fun entry => entry.1.name == name) entries).map Prod.snd

def without (entries : Entries) (name : String) : Entries :=
  List.filter (fun entry => entry.1.name != name) entries

/-- Puts an item where another one stands; the key stays as it was written. -/
def replace (entries : Entries) (name : String) (item : Item) : Entries :=
  List.map (fun entry => if entry.1.name == name then (entry.1, item) else entry) entries

end Entries

end ProbeLowering.Toml
