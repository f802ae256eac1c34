import ProbeLowering.Dwarf.LineProgram
import ProbeLowering.Dwarf.Location
import ProbeLowering.Text.LossyUtf8

/-!
# Compilation units

A `CompilationUnit` is what lookups may ask of a unit: its entries in
depth-first order, an entry by its offset, the children of an entry, and the
text of an attribute.  `Sections.units` builds the units of an image.
-/

namespace ProbeLowering.Dwarf

structure CompilationUnit where
  entries : Listing Die
  entryAt : Nat → Except Fault Die
  childrenAt : Nat → Listing Die
  text : AttrValue → Except Fault String
  /-- First operation of a location expression. -/
  firstOperation? : ByteArray → Except Fault (Option Operation)

structure Sections where
  order : ByteOrder
  info : ByteArray := .empty
  abbrev_ : ByteArray := .empty
  addr : ByteArray := .empty
  line : ByteArray := .empty
  lineStr : ByteArray := .empty
  str : ByteArray := .empty
  strOffsets : ByteArray := .empty

open Decode

def Sections.decodeAt {α : Type} (s : Sections) (bytes : ByteArray) (offset : Nat)
    (decode : Decode α) : Except Fault α := do
  let ((), c) ← skip offset (Cursor.ofBytes s.order bytes)
  let (value, _) ← decode c
  pure value

structure UnitHeader where
  encoding : Encoding
  abbrevOffset : Nat
  /-- Offset in the unit at which its entries start. -/
  headerSize : Nat
  body : Cursor

namespace UnitHeader

def decodeFields (dwarf64 : Bool) : Decode (Encoding × Nat × Nat) := do
  let version ← word 2
  if 2 ≤ version ∧ version ≤ 4 then
    let offset ← Form.decodeOffset ⟨dwarf64, version, 0⟩
    let size ← LineProgram.addressSize
    return (⟨dwarf64, version, size⟩, offset, 0x01)
  if version = 5 then
    let type ← byte
    let size ← LineProgram.addressSize
    let e : Encoding := ⟨dwarf64, version, size⟩
    return (e, ← Form.decodeOffset e, type)
  throw (.unknownVersion version)

def skipTypeFields (e : Encoding) (type : Nat) : Decode Unit :=
  match type with
  | 0x01 | 0x03 => pure ()
  | 0x02 | 0x06 => do
      skip 8
      skip e.offsetSize
  | 0x04 | 0x05 => skip 8
  | type => throw (.unsupportedUnitType type)

def decode : Decode UnitHeader := do
  let start := (← get).pos
  let (length, dwarf64) ← LineProgram.initialLength
  let unit ← split length
  let ((e, abbrevOffset, type), c) ← (decodeFields dwarf64).run unit
  let ((), c) ← (skipTypeFields e type).run c
  pure ⟨e, abbrevOffset, c.pos - start, c⟩

end UnitHeader

structure TableBases where
  strings : Nat := 0
  addresses : Nat := 0
  deriving DecidableEq, Repr

namespace TableBases

/-- The last attribute of each kind counts. -/
def ofAttrs (attrs : List (AttrName × AttrValue)) : TableBases :=
  attrs.foldl (fun bases (name, value) =>
    match value.sectionOffset? with
    | none => bases
    | some offset =>
        if name = AttrName.strOffsetsBase then { bases with strings := offset }
        else if name = AttrName.addrBase ∨ name = AttrName.gnuAddrBase then
          { bases with addresses := offset }
        else bases) {}

end TableBases

namespace Sections

def zeroTerminatedAt (s : Sections) (bytes : ByteArray) (offset : Nat) :
    Except Fault String :=
  (s.decodeAt bytes offset zeroTerminated).map LossyUtf8.decode

def text (s : Sections) (e : Encoding) (bases : TableBases) :
    AttrValue → Except Fault String
  | .text bytes => .ok (LossyUtf8.decode bytes)
  | .textRef offset => s.zeroTerminatedAt s.str offset
  | .lineTextRef offset => s.zeroTerminatedAt s.lineStr offset
  | .textIndex index => do
      let offset ← s.decodeAt s.strOffsets (bases.strings + index * e.offsetSize)
        (Form.decodeOffset e)
      s.zeroTerminatedAt s.str offset
  | _ => .error .stringExpected

/-- The code address of a unit must be readable if its table holds it. -/
def checkAddress (s : Sections) (e : Encoding) (bases : TableBases) :
    Option AttrValue → Except Fault Unit
  | some (.addressIndex index) => do
      let _ ← s.decodeAt s.addr (bases.addresses + index * e.addressSize)
        (Form.decodeAddress e.addressSize)
  | _ => .ok ()

def checkLines (s : Sections) (e : Encoding) : Option AttrValue → Except Fault Unit
  | some (.sectionOffset offset) =>
      LineProgram.check s.order s.line offset e.addressSize
  | _ => .ok ()

def lastAttr? (attrs : List (AttrName × AttrValue)) (name : AttrName) :
    Option AttrValue :=
  (attrs.filter (·.1 == name)).getLast?.map Prod.snd

def lastOffset? (attrs : List (AttrName × AttrValue)) (name : AttrName) :
    Option AttrValue :=
  (attrs.filter fun a => a.1 == name && a.2.sectionOffset?.isSome).getLast?.map Prod.snd

def rootOf (pool : EntryPool) : Except Fault Die := do
  match pool.entries.items with
  | [] => throw (pool.entries.fault.getD .missingRoot)
  | root :: _ =>
      let _ ← root.next
      pure root

def buildUnit (s : Sections) (h : UnitHeader) : Except Fault CompilationUnit := do
  let abbreviations ← AbbreviationTable.decodeAt s.order s.abbrev_ h.abbrevOffset
  let pool : EntryPool := ⟨h.encoding, abbreviations, h.headerSize, h.body⟩
  let root ← rootOf pool
  let bases := TableBases.ofAttrs root.attrs
  s.checkLines h.encoding (lastOffset? root.attrs AttrName.stmtList)
  s.checkAddress h.encoding bases (lastAttr? root.attrs AttrName.lowPc)
  pure {
    entries := pool.entries
    entryAt := pool.entryAt
    childrenAt := pool.childrenAt
    text := s.text h.encoding bases
    firstOperation? := Operation.first? h.encoding s.order }

/-- The units from a place on; each takes four bytes at least. -/
def unitsFrom (s : Sections) : Nat → Cursor → Listing CompilationUnit
  | 0, _ => .empty
  | fuel + 1, c =>
      if c.isEmpty then .empty
      else match UnitHeader.decode c with
        | .error e => .failed e
        | .ok (h, c) =>
            match s.buildUnit h with
            | .error e => .failed e
            | .ok unit => .cons unit (unitsFrom s fuel c)

def units (s : Sections) : Listing CompilationUnit :=
  s.unitsFrom (s.info.size + 1) (Cursor.ofBytes s.order s.info)

end Sections

end ProbeLowering.Dwarf
