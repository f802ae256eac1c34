/-!
# Lines

A line ends at a line feed, and a carriage return before it belongs to the
ending.  Places in a text are counted in bytes.
-/

namespace ProbeLowering.Text

structure Place where
  line : Nat
  column : Nat
  deriving DecidableEq, Repr

def placeFrom (place : Place) : List Char → Nat → Place
  | [], _ | _, 0 => place
  | c :: rest, offset =>
      if c = '\n' then placeFrom ⟨place.line + 1, 0⟩ rest (offset - 1)
      else placeFrom ⟨place.line, place.column + c.utf8Size⟩ rest (offset - c.utf8Size)

def placeOf (text : String) (offset : Nat) : Place :=
  placeFrom ⟨0, 0⟩ text.toList offset

def breakLine (cs : List Char) : List Char × Option (List Char) :=
  match cs.span (· != '\n') with
  | (line, []) => (line, none)
  | (line, _ :: rest) => (line, some rest)

def dropReturn (line : List Char) : List Char :=
  if line.getLast? = some '\r' then line.dropLast else line

/-- The line with the given number; there is none after the last line feed. -/
def lineAt (cs : List Char) : Nat → List Char
  | 0 =>
      match breakLine cs with
      | (line, none) => line
      | (line, some _) => dropReturn line
  | n + 1 =>
      match breakLine cs with
      | (_, none) => []
      | (_, some rest) => lineAt rest n

end ProbeLowering.Text
