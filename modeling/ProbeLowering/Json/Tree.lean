/-!
# JSON trees

A tree keeps the members of an object in the order in which they are written,
repeated names included.  Numbers that are not integers keep their text.
`unreadable` stands for what the grammar admits and no reader of text can use:
a string, or an object with a name, in which half of a surrogate pair is missing.
-/

namespace ProbeLowering

inductive Json where
  | null
  | bool (value : Bool)
  | int (value : Int)
  | decimal (text : String)
  | string (value : String)
  | array (items : List Json)
  | object (members : List (String × Json))
  | unreadable
  deriving Repr

namespace Json

instance : Inhabited Json := ⟨.null⟩

def texts (items : List String) : Json := .array (items.map .string)

end Json

end ProbeLowering
