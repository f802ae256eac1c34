import ProbeLowering.Dwarf.TypeDescription

/-!
# Finding functions and records

A concrete instance or an out-of-class definition carries code and locations;
its name and type are those of the entry that it instantiates or completes.
Lookups go through the units in order, and through each depth first.
-/

namespace ProbeLowering.Dwarf

open DebugInfo (LookupError)

def maxOrigins : Nat := 8

def originAttr? (unit : CompilationUnit) (name : AttrName) :
    Nat → Option Nat → Except Fault (Option AttrValue)
  | 0, _ | _, none => pure none
  | n + 1, some offset => do
      let die ← unit.entryAt offset
      match ← die.attr? name with
      | some value => pure (some value)
      | none => originAttr? unit name n (← die.origin?)

/-- The attribute of the entry, or else of the nearest of its origins that has it. -/
def inheritedAttr? (unit : CompilationUnit) (die : Die) (name : AttrName) :
    Except Fault (Option AttrValue) := do
  match ← die.attr? name with
  | some value => pure (some value)
  | none => originAttr? unit name maxOrigins (← die.origin?)

def inheritedText? (unit : CompilationUnit) (die : Die) (name : AttrName) :
    Except Fault (Option String) := do
  match ← inheritedAttr? unit die name with
  | some value => return some (← unit.text value)
  | none => pure none

/-- The entry holds the code of the function `symbol`, by plain or linkage name. -/
def isFunction (symbol : String) (unit : CompilationUnit) (die : Die) :
    Except Fault Bool := do
  if die.tag ≠ Tag.subprogram then return false
  if ← die.isDeclaration then return false
  if !(← die.hasCode) then return false
  let name ← inheritedText? unit die AttrName.name
  let linkageName ← inheritedText? unit die AttrName.linkageName
  return name == some symbol || linkageName == some symbol

def isRecord (typeName : String) (unit : CompilationUnit) (die : Die) :
    Except Fault Bool := do
  if !die.tag.isRecord then return false
  if ← die.isDeclaration then return false
  return (← ownText? unit die AttrName.name) == some typeName

def findDie? (units : Listing CompilationUnit)
    (p : CompilationUnit → Die → Except Fault Bool) :
    Except Fault (Option (CompilationUnit × Die)) :=
  units.findSomeM? fun unit =>
    return (← unit.entries.findM? (p unit)).map fun die => (unit, die)

def findFunction (units : Listing CompilationUnit) (symbol : String) :
    Except LookupError (CompilationUnit × Die) := do
  match ← decoded (findDie? units (isFunction symbol)) with
  | some found => pure found
  | none => throw (.functionNotFound symbol)

def findRecord (units : Listing CompilationUnit) (typeName : String) :
    Except LookupError (CompilationUnit × Die) := do
  match ← decoded (findDie? units (isRecord typeName)) with
  | some found => pure found
  | none => throw (.structNotFound typeName)

end ProbeLowering.Dwarf
