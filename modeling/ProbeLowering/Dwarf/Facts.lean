import ProbeLowering.Dwarf.Lookup
import ProbeLowering.Elf

/-!
# Facts of an image

The arguments of a function are the parameters below its entry, its return
type is the type of the entry, and members are found below the entry of their
record.
-/

namespace ProbeLowering.Dwarf

open DebugInfo

def Listing.foldFacts {α β : Type} (f : β → α → Except LookupError β) (start : β)
    (l : Listing α) : Except LookupError β := do
  let last ← l.items.foldlM f start
  match l.fault with
  | some e => decoded (.error e)
  | none => pure last

structure Placement where
  args : NameMap ArgInfo := .empty
  layout : StackLayout := {}

namespace Placement

def add (unit : CompilationUnit) (placement : Placement) (die : Die) :
    Except LookupError Placement := do
  if die.tag ≠ Tag.formalParameter then return placement
  let name ← decoded (inheritedText? unit die AttrName.name)
  let name := name.getD s!"arg{placement.args.size}"
  let type ← TypeDescription.ofReference unit
    (← decoded (inheritedAttr? unit die AttrName.type))
  let explicit ← decoded (frameOffset? unit.firstOperation? die)
  let (offset, layout) := placement.layout.place (toSigned64 type.byteSize) explicit
  let info : ArgInfo := ⟨offset, type.kind, type.typeName⟩
  return ⟨placement.args.insert name info, layout⟩

end Placement

def argumentsOf (units : Listing CompilationUnit) (symbol : String) :
    Except LookupError (NameMap ArgInfo) := do
  let (unit, function) ← findFunction units symbol
  let placement ← (unit.childrenAt function.offset).foldFacts (Placement.add unit) {}
  pure placement.args

def returnOf (units : Listing CompilationUnit) (symbol : String) :
    Except LookupError RetValInfo := do
  let (unit, function) ← findFunction units symbol
  let type ← TypeDescription.ofReference unit
    (← decoded (inheritedAttr? unit function AttrName.type))
  pure ⟨type.kind, type.typeName⟩

def isMember (field : String) (unit : CompilationUnit) (die : Die) :
    Except Fault Bool := do
  if die.tag ≠ Tag.member then return false
  return (← ownText? unit die AttrName.name) == some field

def memberInfo (unit : CompilationUnit) (die : Die) : Except LookupError MemberInfo := do
  let type ← TypeDescription.ofReference unit (← decoded (die.attr? AttrName.type))
  let offset ← decoded (memberOffset? unit.firstOperation? die)
  pure ⟨offset.getD 0, type.kind, type.typeName⟩

def memberOf (units : Listing CompilationUnit) (typeName field : String) :
    Except LookupError MemberInfo := do
  let (unit, record) ← findRecord units typeName
  match ← decoded ((unit.childrenAt record.offset).findM? (isMember field unit)) with
  | some die => memberInfo unit die
  | none => throw (.memberNotFound typeName field)

def factsOf (units : Listing CompilationUnit) : Facts where
  args := argumentsOf units
  retval := returnOf units
  member := memberOf units

def sectionNames : List String :=
  [".debug_abbrev", ".debug_addr", ".debug_info", ".debug_line", ".debug_line_str",
    ".debug_loc", ".debug_loclists", ".debug_ranges", ".debug_rnglists", ".debug_str",
    ".debug_str_offsets", ".debug_types"]

def loadSections (image : Elf.Image) : Except String (List (String × ByteArray)) :=
  sectionNames.filterMapM fun name =>
    return (← image.contents? name).map fun bytes => (name, bytes)

def Sections.ofLoaded (order : ByteOrder) (loaded : List (String × ByteArray))
    (info : ByteArray) : Sections :=
  let named (name : String) : ByteArray := (loaded.lookup name).getD .empty
  { order, info
    abbrev_ := named ".debug_abbrev"
    addr := named ".debug_addr"
    line := named ".debug_line"
    lineStr := named ".debug_line_str"
    str := named ".debug_str"
    strOffsets := named ".debug_str_offsets" }

def Sections.ofFile (path : String) (file : ByteArray) : Except LookupError Sections := do
  let image ← (Elf.parse file).mapError .notAnObject
  let loaded ← (loadSections image).mapError .notAnObject
  match loaded.lookup ".debug_info" with
  | some info => pure (.ofLoaded image.order loaded info)
  | none => throw (.noDebugInfo path)

/-- Facts about the file at `path`; whether it can be opened is settled first. -/
def openFacts (path : String) (file : ByteArray) : Except LookupError Facts := do
  let sections ← Sections.ofFile path file
  pure (factsOf sections.units)

end ProbeLowering.Dwarf
