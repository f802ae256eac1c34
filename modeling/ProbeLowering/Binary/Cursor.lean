import ProbeLowering.Binary.Fault

/-!
# Reading bytes

A `Cursor` stands inside a window of a byte array.  Decoders take a cursor,
yield a value and move the cursor on; none of them reads past the window.
-/

namespace ProbeLowering

inductive ByteOrder where
  | little
  | big
  deriving DecidableEq, Repr

structure Cursor where
  order : ByteOrder
  bytes : ByteArray
  pos : Nat
  stop : Nat

abbrev Decode (α : Type) := StateT Cursor (Except Fault) α

namespace Cursor

def ofBytes (order : ByteOrder) (bytes : ByteArray) : Cursor :=
  ⟨order, bytes, 0, bytes.size⟩

def remaining (c : Cursor) : Nat := c.stop - c.pos

def isEmpty (c : Cursor) : Bool := c.stop ≤ c.pos

def byteAt? (c : Cursor) (i : Nat) : Option UInt8 :=
  if i < c.stop then c.bytes[i]? else none

def moveTo (c : Cursor) (pos : Nat) : Cursor := { c with pos }

def rest (c : Cursor) : ByteArray := c.bytes.extract c.pos c.stop

end Cursor

namespace Decode

def byte : Decode Nat := fun c =>
  match c.byteAt? c.pos with
  | some b => .ok (b.toNat, { c with pos := c.pos + 1 })
  | none => .error .endOfData

def byteList : Nat → Decode (List Nat)
  | 0 => pure []
  | n + 1 => do
      let b ← byte
      let rest ← byteList n
      pure (b :: rest)

def littleEndian : List Nat → Nat
  | [] => 0
  | b :: rest => b + 256 * littleEndian rest

def word (n : Nat) : Decode Nat := do
  let bytes ← byteList n
  match (← get).order with
  | .little => pure (littleEndian bytes)
  | .big => pure (littleEndian bytes.reverse)

def skip (n : Nat) : Decode Unit := fun c =>
  if n ≤ c.remaining then .ok ((), { c with pos := c.pos + n }) else .error .endOfData

def split (n : Nat) : Decode Cursor := fun c =>
  if n ≤ c.remaining then
    .ok ({ c with stop := c.pos + n }, { c with pos := c.pos + n })
  else .error .endOfData

def block (n : Nat) : Decode ByteArray := do
  pure (← split n).rest

def distanceToZero? (c : Cursor) (pos : Nat) : Nat → Option Nat
  | 0 => none
  | n + 1 =>
      match c.byteAt? pos with
      | none => none
      | some b =>
          if b = 0 then some 0 else (distanceToZero? c (pos + 1) n).map (· + 1)

def zeroTerminated : Decode ByteArray := fun c =>
  match distanceToZero? c c.pos c.remaining with
  | some n => .ok (c.bytes.extract c.pos (c.pos + n), { c with pos := c.pos + n + 1 })
  | none => .error .endOfData

def maxLebBytes : Nat := 10

/-- Unsigned number, `shift` bits of which have been read; the tenth byte holds one bit. -/
def uleb128From : Nat → Nat → Decode Nat
  | 0, _ => throw .badUnsignedLeb128
  | n + 1, shift => do
      let b ← byte
      if shift = 63 && b ≠ 0 && b ≠ 1 then throw .badUnsignedLeb128
      let low := (b % 128) * 2 ^ shift
      if b < 128 then pure low
      else pure (low + (← uleb128From n (shift + 7)))

def uleb128 : Decode Nat := uleb128From maxLebBytes 0

def uleb128Short : Decode Nat := do
  let a ← byte
  if a < 128 then return a
  let b ← byte
  let low := a % 128 + (b % 128) * 128
  if b < 128 then return low
  let c ← byte
  if c > 3 then throw .badUnsignedLeb128
  return low + c * 0x4000

/-- Signed number; bit 6 of the last byte is its sign, and the tenth byte is all sign. -/
def sleb128From : Nat → Nat → Decode Int
  | 0, _ => throw .badSignedLeb128
  | n + 1, shift => do
      let b ← byte
      if shift = 63 && b ≠ 0 && b ≠ 127 then throw .badSignedLeb128
      let low : Int := (b % 128 : Nat) * 2 ^ shift
      if b < 128 then
        if b ≥ 64 then pure (low - 2 ^ (shift + 7)) else pure low
      else pure (low + (← sleb128From n (shift + 7)))

def sleb128 : Decode Int := sleb128From maxLebBytes 0

end Decode

def toSigned64 (n : Nat) : Int :=
  if n < 0x8000000000000000 then n else (n : Int) - 0x10000000000000000

end ProbeLowering
