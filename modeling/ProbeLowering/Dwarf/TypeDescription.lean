import ProbeLowering.DebugInfo.Facts
import ProbeLowering.Dwarf.Unit

/-!
# Descriptions of types

A type is described by its kind, a name and a size.  Typedefs and qualifiers
stand for the type they refer to, and a pointer is named after its pointee.
References may form cycles, so the number of entries visited is bounded: each
pointer that is crossed leaves one entry less for what follows it.
-/

namespace ProbeLowering.Dwarf

open DebugInfo (VarKind LookupError)

structure TypeDescription where
  kind : VarKind
  typeName : String
  byteSize : Nat
  deriving DecidableEq, Repr

namespace TypeDescription

def void : TypeDescription := ⟨.void, "void", 0⟩

def maxDepth : Nat := 32

/-- Size of a pointer that does not give its own. -/
def pointerSize : Nat := 8

def enumerationSize : Nat := 4

/-- A pointer to a pointer keeps a star, so that it never passes for its innermost type. -/
def pointerTo (size : Nat) (pointee : TypeDescription) : TypeDescription :=
  let typeName := if pointee.kind = .pointer then pointee.typeName ++ " *"
    else pointee.typeName
  ⟨.pointer, typeName, size⟩

end TypeDescription

inductive TypeLink where
  | described (description : TypeDescription)
  | alias (target : Option AttrValue)
  | pointer (size : Nat) (pointee : Option AttrValue)

def decoded {α : Type} (read : Except Fault α) : Except LookupError α :=
  read.mapError fun e => .malformed e.message

/-- A reference to a type must stay within its unit. -/
def localOffset (reference : AttrValue) : Except LookupError Nat :=
  match reference.unitRef? with
  | some offset => .ok offset
  | none => .error (.invalid (.unsupportedReference reference.display))

def ownText? (unit : CompilationUnit) (die : Die) (name : AttrName) :
    Except Fault (Option String) := do
  match ← die.attr? name with
  | some value => return some (← unit.text value)
  | none => pure none

def TypeLink.ofDie (unit : CompilationUnit) (die : Die) :
    Except LookupError TypeLink := do
  let name ← decoded (ownText? unit die AttrName.name)
  let size := (← decoded (die.attr? AttrName.byteSize)).bind AttrValue.unsigned?
  if die.tag.isAlias then
    return .alias (← decoded (die.attr? AttrName.type))
  if die.tag = Tag.baseType then
    return .described ⟨.base, name.getD "<unnamed>", size.getD 0⟩
  if die.tag = Tag.enumerationType then
    match ← decoded (die.attr? AttrName.type) with
    | some underlying => return .alias (some underlying)
    | none =>
        return .described ⟨.base, "int", size.getD TypeDescription.enumerationSize⟩
  if die.tag.isPointer then
    return .pointer (size.getD TypeDescription.pointerSize)
      (← decoded (die.attr? AttrName.type))
  if die.tag.isAggregate then
    return .described ⟨.struct, name.getD "<anonymous>", size.getD 0⟩
  if die.tag = Tag.unspecifiedType then
    return .described .void
  throw (.invalid (.unsupportedTag die.tag.display))

namespace TypeDescription

/-- Visits at most `steps` entries from `offset` on; `pointee` describes a pointer's target. -/
def follow (unit : CompilationUnit)
    (pointee : Option AttrValue → Except LookupError TypeDescription) :
    Nat → Nat → Except LookupError TypeDescription
  | 0, offset => throw (.invalid (.deepTypeChain maxDepth offset))
  | steps + 1, offset => do
      let die ← decoded (unit.entryAt offset)
      match ← TypeLink.ofDie unit die with
      | .described description => pure description
      | .alias none => pure void
      | .alias (some target) => follow unit pointee steps (← localOffset target)
      | .pointer size target => return pointerTo size (← pointee target)

def within (unit : CompilationUnit) :
    Nat → Option AttrValue → Except LookupError TypeDescription
  | _, none => pure void
  | 0, some reference => do
      throw (.invalid (.deepTypeChain maxDepth (← localOffset reference)))
  | depth + 1, some reference => do
      follow unit (within unit depth) (depth + 1) (← localOffset reference)

def ofReference (unit : CompilationUnit) (reference : Option AttrValue) :
    Except LookupError TypeDescription :=
  within unit maxDepth reference

end TypeDescription

end ProbeLowering.Dwarf
