import ProbeLowering.Dwarf.Attribute

/-!
# Line program headers

A unit that names a line program can only be used if the header of that
program is well formed.  Nothing else of the program is needed.
-/

namespace ProbeLowering.Dwarf.LineProgram

open Decode

def initialLength : Decode (Nat × Bool) := do
  let value ← word 4
  if value < 0xfffffff0 then return (value, false)
  if value = 0xffffffff then return (← word 8, true)
  throw (.reservedLength value)

def addressSize : Decode Nat := do
  let size ← byte
  if size = 1 ∨ size = 2 ∨ size = 4 ∨ size = 8 then pure size
  else throw (.unsupportedAddressSize size)

def directories : Nat → Decode Unit
  | 0 => throw .endOfData
  | n + 1 => do
      if (← zeroTerminated).isEmpty then return
      directories n

def files : Nat → Decode Unit
  | 0 => throw .endOfData
  | n + 1 => do
      if (← zeroTerminated).isEmpty then return
      let _ ← uleb128
      let _ ← uleb128
      let _ ← uleb128
      files n

def fieldForms : List Form :=
  [0x03, 0x04, 0x05, 0x06, 0x07, 0x08, 0x09, 0x0a, 0x0b, 0x0c, 0x0d, 0x0e, 0x0f, 0x17,
    0x1a, 0x1d, 0x1e, 0x1f, 0x25, 0x26, 0x27, 0x28, 0x1f02, 0x1f21]

def pathContent : Nat := 1

def entryFormat : Nat → Decode (List (Nat × Form))
  | 0 => pure []
  | n + 1 => do
      let content ← uleb128
      let form ← uleb128Short
      return (content, form) :: (← entryFormat n)

def pathFormat : Decode (List Form) := do
  let format ← entryFormat (← byte)
  if (format.filter (·.1 == pathContent)).length ≠ 1 then throw .missingPathFormat
  pure (format.map Prod.snd)

def fields (e : Encoding) : List Form → Decode Unit
  | [] => pure ()
  | form :: rest => do
      if !fieldForms.contains form then throw (.unknownForm form)
      let _ ← AttrSpec.decode e ⟨0, form, none⟩
      fields e rest

/-- `count` entries; each takes a byte at least, so `fuel` bounds them too. -/
def entries (e : Encoding) (format : List Form) : Nat → Nat → Decode Unit
  | _, 0 => pure ()
  | 0, _ + 1 => throw .endOfData
  | fuel + 1, count + 1 => do
      fields e format
      entries e format fuel count

def entryTable (e : Encoding) : Decode Unit := do
  let format ← pathFormat
  let count ← uleb128
  entries e format ((← get).remaining + 1) count

def nonZero (fault : Fault) : Decode Unit := do
  if (← byte) = 0 then throw fault

def body (e : Encoding) : Decode Unit := do
  nonZero .zeroInstructionLength
  if e.version ≥ 4 then nonZero .zeroOperationCount
  skip 2
  nonZero .zeroLineRange
  let opcodeBase ← byte
  if opcodeBase = 0 then throw .zeroOpcodeBase
  skip (opcodeBase - 1)
  if e.version ≤ 4 then
    directories ((← get).remaining + 1)
    files ((← get).remaining + 1)
  else
    entryTable e
    entryTable e

def header (unitAddressSize : Nat) : Decode Unit := do
  let (length, dwarf64) ← initialLength
  let program ← split length
  let part : Decode Unit := do
    let version ← word 2
    if version < 2 ∨ version > 5 then throw (.unknownVersion version)
    let mut size := unitAddressSize
    if version ≥ 5 then
      size ← addressSize
      if (← byte) ≠ 0 then throw .unsupportedSegmentSize
    let e : Encoding := ⟨dwarf64, version, size⟩
    let head ← split (← Form.decodeOffset e)
    let _ ← (body e).run head
  let _ ← part.run program

def check (order : ByteOrder) (section_ : ByteArray) (offset unitAddressSize : Nat) :
    Except Fault Unit := do
  let ((), c) ← skip offset (Cursor.ofBytes order section_)
  let _ ← header unitAddressSize c

end ProbeLowering.Dwarf.LineProgram
