/-!
# Hosts

What a run needs of the system that it runs on: files by path, and the two
directories in which settings are looked for.  The effects are those of any
monad, so that a run can be studied on a tree of files held in memory.
-/

namespace ProbeLowering

/-- A file operation that failed, with the words of the system. -/
structure FileError where
  detail : String
  deriving DecidableEq, Repr

structure Host (m : Type → Type) where
  home? : Option String
  directory? : Option String
  /-- There is a file or a directory at a path. -/
  isPresent : String → m Bool
  read : String → m (Except FileError ByteArray)
  /-- Creates a file or replaces what it holds. -/
  write : String → ByteArray → m (Except FileError Unit)
  /-- Adds text at the end of a file. -/
  append : String → String → m Unit
  /-- Shows a line to whoever started the run, apart from its output. -/
  announce : String → m Unit

def utf8Text (bytes : ByteArray) : Except FileError String :=
  match String.fromUTF8? bytes with
  | some text => .ok text
  | none => .error ⟨"stream did not contain valid UTF-8"⟩

namespace Host

def readText {m : Type → Type} [Monad m] (host : Host m) (path : String) :
    m (Except FileError String) := do
  return (← host.read path).bind utf8Text

end Host

end ProbeLowering
