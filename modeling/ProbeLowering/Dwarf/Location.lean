import ProbeLowering.Dwarf.Die

/-!
# Locations

A location expression is a sequence of operations.  Parameters are placed by
an offset from the frame base and members by a constant added to the address
of their record; only the first operation of an expression is looked at.
-/

namespace ProbeLowering.Dwarf

inductive Operation where
  | frameOffset (offset : Int)
  | plusConstant (value : Nat)
  | other (opcode : Nat)
  deriving DecidableEq, Repr

namespace Operation

open Decode

def skipRegister : Decode Unit := do
  let register ← uleb128
  if register ≥ 0x10000 then throw (.unsupportedRegister register)

def skipUnsigned : Decode Unit := do
  let _ ← uleb128

def skipSigned : Decode Unit := do
  let _ ← sleb128

def skipForeignLocation : Decode Unit := do
  let kind ← byte
  if kind ≤ 2 then skipUnsigned
  else if kind = 3 then skip 4
  else throw (.unknownOperation 0xed)

def skipOperands (e : Encoding) (opcode : Nat) : Decode Unit := do
  match opcode with
  | 0x03 => let _ ← Form.decodeAddress e.addressSize
  | 0x06 | 0x12 | 0x13 | 0x14 | 0x16 | 0x17 | 0x18 | 0x96 | 0x97 | 0x9b | 0x9c | 0x9f
  | 0xe0 => pure ()
  | 0x08 | 0x09 | 0x15 | 0x94 | 0x95 => skip 1
  | 0x0a | 0x0b | 0x28 | 0x2f | 0x98 => skip 2
  | 0x0c | 0x0d | 0x99 | 0xfa => skip 4
  | 0x0e | 0x0f => skip 8
  | 0x10 | 0x93 | 0xa1 | 0xfb | 0xa2 | 0xfc | 0xa8 | 0xf7 | 0xa9 | 0xf9 => skipUnsigned
  | 0x11 => skipSigned
  | 0x90 => skipRegister
  | 0x92 => do
      skipRegister
      skipSigned
  | 0x9a => skip e.offsetSize
  | 0x9d => do
      skipUnsigned
      skipUnsigned
  | 0x9e | 0xa3 | 0xf3 => do skip (← uleb128)
  | 0xa0 | 0xf2 => do
      let _ ← Form.decodeInfoRef e
      skipSigned
  | 0xa4 | 0xf4 => do
      skipUnsigned
      skip (← byte)
  | 0xa5 | 0xf5 => do
      skipRegister
      skipUnsigned
  | 0xa6 | 0xf6 | 0xa7 => do
      skip 1
      skipUnsigned
  | 0xed => skipForeignLocation
  | _ =>
      if (0x19 ≤ opcode ∧ opcode ≤ 0x2e) ∨ (0x30 ≤ opcode ∧ opcode ≤ 0x6f) then pure ()
      else if 0x70 ≤ opcode ∧ opcode ≤ 0x8f then skipSigned
      else throw (.unknownOperation opcode)

def decode (e : Encoding) : Decode Operation := do
  let opcode ← byte
  if opcode = 0x91 then return .frameOffset (← sleb128)
  if opcode = 0x23 then return .plusConstant (← uleb128)
  skipOperands e opcode
  return .other opcode

def first? (e : Encoding) (order : ByteOrder) (bytes : ByteArray) :
    Except Fault (Option Operation) :=
  if bytes.isEmpty then .ok none
  else (decode e (Cursor.ofBytes order bytes)).map fun (op, _) => some op

end Operation

def memberOffset? (first? : ByteArray → Except Fault (Option Operation))
    (die : Die) : Except Fault (Option Int) := do
  match ← die.attr? AttrName.dataMemberLocation with
  | none => pure none
  | some value =>
      match value.unsigned?, value.expression?, value with
      | some n, _, _ => pure (some (toSigned64 n))
      | none, some bytes, _ =>
          match ← first? bytes with
          | some (.plusConstant n) => pure (some (toSigned64 n))
          | _ => pure none
      | none, none, .signed n => pure (some n)
      | none, none, _ => pure none

def frameOffset? (first? : ByteArray → Except Fault (Option Operation))
    (die : Die) : Except Fault (Option Int) := do
  match (← die.attr? AttrName.location).bind AttrValue.expression? with
  | none => pure none
  | some bytes =>
      match ← first? bytes with
      | some (.frameOffset offset) => pure (some offset)
      | _ => pure none

/-- Stack slots laid out one after the other; `next` is where free space begins. -/
structure StackLayout where
  next : Int := 0
  deriving DecidableEq, Repr

namespace StackLayout

/-- Slots are aligned to their own size, up to a word. -/
def alignment (size : Int) : Int := max 1 (min size 8)

def alignUp (offset align : Int) : Int :=
  (offset + align - 1).tdiv align * align

/-- Places a slot, where it says itself or else in the next free space; the sums are exact. -/
def place (layout : StackLayout) (size : Int) (explicit : Option Int) :
    Int × StackLayout :=
  let offset := explicit.getD (alignUp layout.next (alignment size))
  (offset, ⟨max layout.next (offset + size)⟩)

end StackLayout

end ProbeLowering.Dwarf
