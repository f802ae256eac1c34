import ProbeLowering.Toml.Problem

/-!
# Reading TOML text

A `Source` is what is left of a text and the byte at which that starts.
Readers take characters from it or say what they expected there.
-/

namespace ProbeLowering.Toml

structure Source where
  position : Nat
  rest : List Char

abbrev Read (α : Type) := StateT Source (Except Problem) α

def Source.ofString (text : String) : Source := ⟨0, text.toList⟩

namespace Read

def byteLength (cs : List Char) : Nat := cs.foldl (fun n c => n + c.utf8Size) 0

def position : Read Nat := return (← get).position

def peek? : Read (Option Char) := return (← get).rest.head?

def lookahead (n : Nat) : Read (List Char) := return (← get).rest.take n

def fail {α : Type} (kind : ProblemKind) : Read α := do
  throw ⟨kind, ← position⟩

def expected {α : Type} (what : String) : Read α := fail (.expected what)

def drop (n : Nat) : Read Unit := modify fun s =>
  ⟨s.position + byteLength (s.rest.take n), s.rest.drop n⟩

def takeWhile (p : Char → Bool) : Read (List Char) := do
  let run := (← get).rest.takeWhile p
  drop run.length
  pure run

def literal (text : String) : Read Unit := do
  let cs := text.toList
  if (← lookahead cs.length) = cs then drop cs.length
  else expected s!"\x60{text}\x60"

def literal? (text : String) : Read Bool := do
  let cs := text.toList
  if (← lookahead cs.length) = cs then
    drop cs.length
    pure true
  else pure false

/-- A number of steps that no reader can exceed, for each takes a character. -/
def bound : Read Nat := return (← get).rest.length + 1

def isBlank (c : Char) : Bool := c = ' ' || c = '\t'

def blanks : Read Unit := do
  let _ ← takeWhile isBlank

def isPlain (c : Char) : Bool := c = '\t' || (0x20 ≤ c.toNat && c.toNat ≠ 0x7F)

def comment : Read Unit := do
  if (← peek?) = some '#' then
    let _ ← takeWhile isPlain

def newline? : Read Bool := do
  if ← literal? "\n" then return true
  literal? "\r\n"

def newline : Read Unit := do
  if !(← newline?) then expected "a newline"

def lineEnd : Read Unit := do
  blanks
  comment
  if (← get).rest.isEmpty then return
  newline

def gapsFrom : Nat → Read Unit
  | 0 => pure ()
  | n + 1 => do
      blanks
      match ← peek? with
      | some '#' => do
          comment
          newline
          gapsFrom n
      | some '\n' | some '\r' => do
          newline
          gapsFrom n
      | _ => pure ()

def gaps : Read Unit := do gapsFrom (← bound)

end Read

end ProbeLowering.Toml
