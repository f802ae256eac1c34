/-!
# Text from bytes

Bytes that are not UTF-8 are read as text all the same: each longest run of
bytes that begins a character without completing it, and each byte that begins
none, becomes one replacement character.
-/

namespace ProbeLowering.LossyUtf8

def replacement : Char := Char.ofNat 0xFFFD

/-- Length of the character that a byte begins, and the range of its second byte. -/
def lead? (b : Nat) : Option (Nat × Nat × Nat) :=
  if b < 0xC2 then none
  else if b < 0xE0 then some (2, 0x80, 0xBF)
  else if b = 0xE0 then some (3, 0xA0, 0xBF)
  else if b = 0xED then some (3, 0x80, 0x9F)
  else if b < 0xF0 then some (3, 0x80, 0xBF)
  else if b = 0xF0 then some (4, 0x90, 0xBF)
  else if b < 0xF4 then some (4, 0x80, 0xBF)
  else if b = 0xF4 then some (4, 0x80, 0x8F)
  else none

def isContinuation (b : Nat) : Bool := 0x80 ≤ b && b ≤ 0xBF

def char2 (a b : Nat) : Char := Char.ofNat ((a - 0xC0) * 64 + (b - 0x80))

def char3 (a b c : Nat) : Char :=
  Char.ofNat (((a - 0xE0) * 64 + (b - 0x80)) * 64 + (c - 0x80))

def char4 (a b c d : Nat) : Char :=
  Char.ofNat ((((a - 0xF0) * 64 + (b - 0x80)) * 64 + (c - 0x80)) * 64 + (d - 0x80))

def readTail (a : Nat) (rest : List Nat) : Char × Nat :=
  match lead? a, rest with
  | some (width, low, high), b :: rest =>
      if b < low || high < b then (replacement, 0)
      else if width = 2 then (char2 a b, 1)
      else match rest with
      | c :: rest =>
          if !isContinuation c then (replacement, 1)
          else if width = 3 then (char3 a b c, 2)
          else match rest with
          | d :: _ => if isContinuation d then (char4 a b c d, 3) else (replacement, 2)
          | [] => (replacement, 2)
      | [] => (replacement, 1)
  | _, _ => (replacement, 0)

def decodeBytes : List Nat → List Char
  | [] => []
  | a :: rest =>
      if a < 0x80 then Char.ofNat a :: decodeBytes rest
      else
        let (c, taken) := readTail a rest
        c :: decodeBytes (rest.drop taken)
  termination_by bytes => bytes.length
  decreasing_by all_goals simp; try omega

def decode (bytes : ByteArray) : String :=
  String.ofList (decodeBytes (bytes.toList.map UInt8.toNat))

end ProbeLowering.LossyUtf8
