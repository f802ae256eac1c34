import ProbeLowering.Files.Host
import ProbeLowering.Text.Pieces

/-!
# Trees of files

A tree holds files by the names on the way to them from its root; a directory
exists as long as a file lies below it.  Paths are relative to the root, or
absolute under the name that the root has.
-/

namespace ProbeLowering

structure FileTree where
  root : String
  files : List (List String × ByteArray) := []

namespace FileTree

abbrev Location := List String

inductive Entry where
  | missing
  | directory
  | file (bytes : ByteArray)

def bytesAt? (tree : FileTree) (location : Location) : Option ByteArray :=
  tree.files.lookup location

/-- The root is always there; any other directory needs a file below it. -/
def isDirectory (tree : FileTree) (location : Location) : Bool :=
  location.isEmpty || tree.files.any fun (path, _) =>
    location.length < path.length && location.isPrefixOf path

def entryAt (tree : FileTree) (location : Location) : Entry :=
  match tree.bytesAt? location with
  | some bytes => .file bytes
  | none => if tree.isDirectory location then .directory else .missing

def put (tree : FileTree) (location : Location) (bytes : ByteArray) : FileTree :=
  { tree with files :=
      (location, bytes) :: tree.files.filter fun file => file.1 != location }

def missingFile : FileError := ⟨"No such file or directory (os error 2)"⟩

def notADirectory : FileError := ⟨"Not a directory (os error 20)"⟩

def isADirectory : FileError := ⟨"Is a directory (os error 21)"⟩

def walk (tree : FileTree) (location : Location) : List String → Except FileError Location
  | [] => .ok location
  | name :: rest =>
      match tree.entryAt location with
      | .missing => .error missingFile
      | .file _ => .error notADirectory
      | .directory =>
          if name = "" ∨ name = "." then walk tree location rest
          else if name = ".." then
            if location.isEmpty then .error missingFile
            else walk tree location.dropLast rest
          else walk tree (location ++ [name]) rest

/-- The part of a path below the root; other absolute paths lead nowhere. -/
def relative? (tree : FileTree) (path : String) : Option (List String) :=
  let names := Text.pieces '/' path
  let root := Text.pieces '/' tree.root
  if path.isEmpty then none
  else if root.isPrefixOf names then some (names.drop root.length)
  else if names.head? = some "" then none
  else some names

def locate (tree : FileTree) (path : String) : Except FileError Location :=
  match tree.relative? path with
  | some names => tree.walk [] names
  | none => .error missingFile

def isPresent (tree : FileTree) (path : String) : Bool :=
  match tree.locate path with
  | .ok location =>
      match tree.entryAt location with
      | .missing => false
      | _ => true
  | .error _ => false

def read (tree : FileTree) (path : String) : Except FileError ByteArray :=
  match tree.locate path with
  | .error e => .error e
  | .ok location =>
      match tree.entryAt location with
      | .file bytes => .ok bytes
      | .directory => .error isADirectory
      | .missing => .error missingFile

def write (tree : FileTree) (path : String) (bytes : ByteArray) :
    Except FileError FileTree :=
  match tree.locate path with
  | .error e => .error e
  | .ok location =>
      match tree.entryAt location with
      | .directory => .error isADirectory
      | _ => .ok (tree.put location bytes)

/-- Adds text at the end of a file; where there is no file, nothing happens. -/
def append (tree : FileTree) (path text : String) : FileTree :=
  match tree.locate path with
  | .error _ => tree
  | .ok location =>
      match tree.entryAt location with
      | .file bytes => tree.put location (bytes ++ text.toUTF8)
      | _ => tree

def host (root : String) : Host (StateM FileTree) where
  home? := some (root ++ "/home")
  directory? := some root
  isPresent path tree := (tree.isPresent path, tree)
  read path tree := (tree.read path, tree)
  write path bytes tree :=
    match tree.write path bytes with
    | .ok changed => (.ok (), changed)
    | .error e => (.error e, tree)
  append path text tree := ((), tree.append path text)
  announce _ tree := ((), tree)

end FileTree

end ProbeLowering
