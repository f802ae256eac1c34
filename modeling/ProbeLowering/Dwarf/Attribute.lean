import ProbeLowering.Binary.Cursor

/-!
# Attributes

An attribute has a name, which says what it means, and a form, which says how
its value is encoded.  Values keep what the form says about them; whether an
attribute is a constant, an expression or a reference is asked of the value.
-/

namespace ProbeLowering.Dwarf

structure Encoding where
  dwarf64 : Bool
  version : Nat
  addressSize : Nat
  deriving DecidableEq, Repr

def Encoding.offsetSize (e : Encoding) : Nat := if e.dwarf64 then 8 else 4

abbrev AttrName := Nat

namespace AttrName

def sibling : AttrName := 0x01
def location : AttrName := 0x02
def name : AttrName := 0x03
def byteSize : AttrName := 0x0b
def stmtList : AttrName := 0x10
def lowPc : AttrName := 0x11
def stringLength : AttrName := 0x19
def returnAddr : AttrName := 0x2a
def startScope : AttrName := 0x2c
def abstractOrigin : AttrName := 0x31
def dataMemberLocation : AttrName := 0x38
def declaration : AttrName := 0x3c
def frameBase : AttrName := 0x40
def macroInfo : AttrName := 0x43
def segment : AttrName := 0x46
def specification : AttrName := 0x47
def staticLink : AttrName := 0x48
def type : AttrName := 0x49
def useLocation : AttrName := 0x4a
def vtableElemLocation : AttrName := 0x4d
def ranges : AttrName := 0x55
def dataBitOffset : AttrName := 0x6b
def linkageName : AttrName := 0x6e
def strOffsetsBase : AttrName := 0x72
def addrBase : AttrName := 0x73
def macros : AttrName := 0x79
def gnuAddrBase : AttrName := 0x2133

/-- Before version 4 a plain number of the size of an offset may be an offset. -/
def admitsSectionOffset (name : AttrName) (version : Nat) : Bool :=
  [location, stmtList, stringLength, returnAddr, startScope, frameBase, macroInfo,
    macros, segment, staticLink, useLocation, vtableElemLocation, ranges].contains name
  || (name == dataMemberLocation && (version == 2 || version == 3))

end AttrName

inductive AttrValue where
  | address (value : Nat)
  | block (bytes : ByteArray)
  | data (size value : Nat)
  | signed (value : Int)
  | unsigned (value : Nat)
  | expression (bytes : ByteArray)
  | flag (value : Bool)
  | sectionOffset (offset : Nat)
  | unitRef (offset : Nat)
  | infoRef (offset : Nat)
  | supplementRef (offset : Nat)
  | typeSignature (signature : Nat)
  | text (bytes : ByteArray)
  | textRef (offset : Nat)
  | supplementTextRef (offset : Nat)
  | lineTextRef (offset : Nat)
  | textIndex (index : Nat)
  | addressIndex (index : Nat)
  | locationIndex (index : Nat)
  | rangeIndex (index : Nat)

namespace AttrValue

def unsigned? : AttrValue → Option Nat
  | data _ value | unsigned value => some value
  | signed value => if 0 ≤ value then some value.toNat else none
  | _ => none

/-- A location expression; older units write it as a block. -/
def expression? : AttrValue → Option ByteArray
  | block bytes | expression bytes => some bytes
  | _ => none

def sectionOffset? : AttrValue → Option Nat
  | sectionOffset offset => some offset
  | _ => none

def unitRef? : AttrValue → Option Nat
  | unitRef offset => some offset
  | _ => none

def display : AttrValue → String
  | address value => s!"Addr({value})"
  | block bytes => s!"Block({bytes.toList})"
  | data size value => s!"Data{size}({value})"
  | signed value => s!"Sdata({value})"
  | unsigned value => s!"Udata({value})"
  | expression bytes => s!"Exprloc(Expression({bytes.toList}))"
  | flag value => s!"Flag({value})"
  | sectionOffset offset => s!"SecOffset({offset})"
  | unitRef offset => s!"UnitRef(UnitOffset({offset}))"
  | infoRef offset => s!"DebugInfoRef(DebugInfoOffset({offset}))"
  | supplementRef offset => s!"DebugInfoRefSup(DebugInfoOffset({offset}))"
  | typeSignature signature => s!"DebugTypesRef(DebugTypeSignature({signature}))"
  | text bytes => s!"String({bytes.toList})"
  | textRef offset => s!"DebugStrRef(DebugStrOffset({offset}))"
  | supplementTextRef offset => s!"DebugStrRefSup(DebugStrOffset({offset}))"
  | lineTextRef offset => s!"DebugLineStrRef(DebugLineStrOffset({offset}))"
  | textIndex index => s!"DebugStrOffsetsIndex(DebugStrOffsetsIndex({index}))"
  | addressIndex index => s!"DebugAddrIndex(DebugAddrIndex({index}))"
  | locationIndex index => s!"DebugLocListsIndex(DebugLocListsIndex({index}))"
  | rangeIndex index => s!"DebugRngListsIndex(DebugRngListsIndex({index}))"

end AttrValue

/-! ## Forms -/

abbrev Form := Nat

def Form.indirect : Form := 0x16

def Form.implicitConst : Form := 0x21

structure AttrSpec where
  name : AttrName
  form : Form
  constant : Option Int := none
  deriving DecidableEq, Repr

namespace Form

open Decode

def decodeAddress (size : Nat) : Decode Nat :=
  if size = 1 ∨ size = 2 ∨ size = 4 ∨ size = 8 then word size
  else throw (.unsupportedAddressSize size)

def decodeOffset (e : Encoding) : Decode Nat := word e.offsetSize

def sizedBlock (size : Decode Nat) : Decode ByteArray := do
  block (← size)

def direct : Nat → Form → Decode Form
  | 0, _ => throw .endOfData
  | n + 1, form => do
      if form = indirect then direct n (← uleb128Short) else pure form

/-- A number that is an offset into a section where the attribute admits one. -/
def decodeData (e : Encoding) (spec : AttrSpec) (size : Nat) : Decode AttrValue := do
  let value ← word size
  if e.offsetSize = size && AttrName.admitsSectionOffset spec.name e.version then
    pure (.sectionOffset value)
  else pure (.data size value)

/-- Before version 3 a reference between units has the size of an address. -/
def decodeInfoRef (e : Encoding) : Decode Nat :=
  if e.version = 2 then decodeAddress e.addressSize else decodeOffset e

def decode (e : Encoding) (spec : AttrSpec) (form : Form) : Decode AttrValue :=
  match form with
  | 0x01 => return .address (← decodeAddress e.addressSize)
  | 0x03 => return .block (← sizedBlock (word 2))
  | 0x04 => return .block (← sizedBlock (word 4))
  | 0x05 => return .data 2 (← word 2)
  | 0x06 => decodeData e spec 4
  | 0x07 => decodeData e spec 8
  | 0x08 => return .text (← zeroTerminated)
  | 0x09 => return .block (← sizedBlock uleb128)
  | 0x0a => return .block (← sizedBlock byte)
  | 0x0b => return .data 1 (← byte)
  | 0x0c => return .flag ((← byte) ≠ 0)
  | 0x0d => return .signed (← sleb128)
  | 0x0e => return .textRef (← decodeOffset e)
  | 0x0f => return .unsigned (← uleb128)
  | 0x10 => return .infoRef (← decodeInfoRef e)
  | 0x11 => return .unitRef (← byte)
  | 0x12 => return .unitRef (← word 2)
  | 0x13 => return .unitRef (← word 4)
  | 0x14 => return .unitRef (← word 8)
  | 0x15 => return .unitRef (← uleb128)
  | 0x17 => return .sectionOffset (← decodeOffset e)
  | 0x18 => return .expression (← sizedBlock uleb128)
  | 0x19 => return .flag true
  | 0x1a | 0x1f02 => return .textIndex (← uleb128)
  | 0x1b | 0x1f01 => return .addressIndex (← uleb128)
  | 0x1c => return .supplementRef (← word 4)
  | 0x1d | 0x1f21 => return .supplementTextRef (← decodeOffset e)
  | 0x1e => return .block (← block 16)
  | 0x1f => return .lineTextRef (← decodeOffset e)
  | 0x20 => return .typeSignature (← word 8)
  | 0x21 =>
      match spec.constant with
      | some value => pure (.signed value)
      | none => throw .missingConstant
  | 0x22 => return .locationIndex (← uleb128)
  | 0x23 => return .rangeIndex (← uleb128)
  | 0x24 => return .supplementRef (← word 8)
  | 0x25 => return .textIndex (← byte)
  | 0x26 => return .textIndex (← word 2)
  | 0x27 => return .textIndex (← word 3)
  | 0x28 => return .textIndex (← word 4)
  | 0x29 => return .addressIndex (← byte)
  | 0x2a => return .addressIndex (← word 2)
  | 0x2b => return .addressIndex (← word 3)
  | 0x2c => return .addressIndex (← word 4)
  | 0x1f20 => return .supplementRef (← decodeOffset e)
  | form => throw (.unknownForm form)

end Form

def AttrSpec.decode (e : Encoding) (spec : AttrSpec) : Decode AttrValue := do
  let form ← Form.direct ((← get).remaining + 1) spec.form
  Form.decode e spec form

end ProbeLowering.Dwarf
