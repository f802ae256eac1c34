import ProbeLowering.Json.Tree

/-!
# Reading JSON

The reader accepts one JSON text, with blanks around it and nothing else.
Numbers have no leading zeros, strings hold no raw control characters, and
there are no comments.  The fuel of the mutual readers bounds how many values
and separators are read; the length of the text is always enough.
-/

namespace ProbeLowering.Json

def isBlank (c : Char) : Bool :=
  c = ' ' || c = '\n' || c = '\r' || c = '\t'

def skipBlanks (cs : List Char) : List Char := cs.dropWhile isBlank

def takeDigits (cs : List Char) : List Char × List Char :=
  cs.span Char.isDigit

def digitsValue (digits : List Char) : Nat :=
  digits.foldl (fun n d => n * 10 + (d.toNat - '0'.toNat)) 0

def readFraction? (cs : List Char) : Option (List Char × List Char) :=
  match cs with
  | '.' :: rest =>
      let (digits, rest) := takeDigits rest
      if digits.isEmpty then none else some ('.' :: digits, rest)
  | _ => some ([], cs)

def readExponent? (cs : List Char) : Option (List Char × List Char) :=
  match cs with
  | mark :: rest =>
      if mark = 'e' || mark = 'E' then
        let (sign, rest) := match rest with
          | '+' :: r => (['+'], r)
          | '-' :: r => (['-'], r)
          | r => ([], r)
        let (digits, rest) := takeDigits rest
        if digits.isEmpty then none else some (mark :: (sign ++ digits), rest)
      else some ([], cs)
  | [] => some ([], cs)

/-- Digits with fraction and exponent; minus zero is not an integer. -/
def readMagnitude? (negative : Bool) (cs : List Char) :
    Option (Json × List Char) := do
  let (digits, rest) := takeDigits cs
  if digits.isEmpty then none
  if digits.head? = some '0' && digits.length > 1 then none
  let (fraction, rest) ← readFraction? rest
  let (exponent, rest) ← readExponent? rest
  let value := digitsValue digits
  let sign := if negative then ['-'] else []
  if fraction.isEmpty && exponent.isEmpty && !(negative && value = 0) then
    some (.int (if negative then -value else value), rest)
  else
    some (.decimal (String.ofList (sign ++ digits ++ fraction ++ exponent)), rest)

def readNumber? (cs : List Char) : Option (Json × List Char) :=
  match cs with
  | '-' :: rest => readMagnitude? true rest
  | _ => readMagnitude? false cs

/-! ## Strings -/

def hexValue? (c : Char) : Option Nat :=
  if '0' ≤ c ∧ c ≤ '9' then some (c.toNat - '0'.toNat)
  else if 'a' ≤ c ∧ c ≤ 'f' then some (c.toNat - 'a'.toNat + 10)
  else if 'A' ≤ c ∧ c ≤ 'F' then some (c.toNat - 'A'.toNat + 10)
  else none

def hex4? (a b c d : Char) : Option Nat := do
  some (((← hexValue? a) * 16 + (← hexValue? b)) * 256
    + ((← hexValue? c) * 16 + (← hexValue? d)))

def isHighSurrogate (n : Nat) : Bool := 0xD800 ≤ n && n ≤ 0xDBFF

def isLowSurrogate (n : Nat) : Bool := 0xDC00 ≤ n && n ≤ 0xDFFF

def pairValue (high low : Nat) : Nat :=
  0x10000 + (high - 0xD800) * 0x400 + (low - 0xDC00)

def shortEscape? : Char → Option Char
  | '"' => some '"'
  | '\\' => some '\\'
  | '/' => some '/'
  | 'b' => some (Char.ofNat 8)
  | 'f' => some (Char.ofNat 12)
  | 'n' => some '\n'
  | 'r' => some '\r'
  | 't' => some '\t'
  | _ => none

def readCodePoint? : List Char → Option (Option Char × List Char)
  | a :: b :: c :: d :: rest =>
      match hex4? a b c d with
      | none => none
      | some n =>
          if isHighSurrogate n then
            match rest with
            | '\\' :: 'u' :: e :: f :: g :: h :: tail =>
                (hex4? e f g h).map fun m =>
                  (if isLowSurrogate m then some (Char.ofNat (pairValue n m))
                    else none, tail)
            | _ => some (none, rest)
          else if isLowSurrogate n then some (none, rest)
          else some (some (Char.ofNat n), rest)
  | _ => none

def readEscape? : List Char → Option (Option Char × List Char)
  | [] => none
  | c :: rest =>
      if c = 'u' then readCodePoint? rest
      else (shortEscape? c).map fun e => (some e, rest)

theorem length_of_readCodePoint? {cs rest : List Char} {c : Option Char}
    (h : readCodePoint? cs = some (c, rest)) : rest.length < cs.length := by
  unfold readCodePoint? at h
  split at h
  · split at h
    · contradiction
    · split at h
      · split at h
        · simp only [Option.map_eq_some_iff, Prod.mk.injEq] at h
          obtain ⟨_, _, _, rfl⟩ := h
          simp
          omega
        · simp only [Option.some.injEq, Prod.mk.injEq] at h
          obtain ⟨_, rfl⟩ := h
          simp
          omega
      · split at h
        all_goals
          simp only [Option.some.injEq, Prod.mk.injEq] at h
          obtain ⟨_, rfl⟩ := h
          simp
          omega
  · contradiction

theorem length_of_readEscape? {cs rest : List Char} {c : Option Char}
    (h : readEscape? cs = some (c, rest)) : rest.length < cs.length := by
  cases cs with
  | nil => simp [readEscape?] at h
  | cons d tail =>
      simp only [readEscape?] at h
      split at h
      · have := length_of_readCodePoint? h
        simp only [List.length_cons]
        omega
      · simp only [Option.map_eq_some_iff, Prod.mk.injEq] at h
        obtain ⟨_, _, _, rfl⟩ := h
        simp

def pushChar (acc : Option (List Char)) (c : Option Char) : Option (List Char) :=
  match acc, c with
  | some cs, some c => some (c :: cs)
  | _, _ => none

/--
Reads up to the closing quote; `acc` holds what was read, latest first, or
`none` once a surrogate without its other half was met.
-/
def readText? (acc : Option (List Char)) (cs : List Char) :
    Option (Option (List Char) × List Char) :=
  match cs with
  | [] => none
  | c :: rest =>
      if c = '"' then some (acc.map List.reverse, rest)
      else if c = '\\' then
        match h : readEscape? rest with
        | none => none
        | some (e, tail) =>
            have := length_of_readEscape? h
            readText? (pushChar acc e) tail
      else if c.toNat < 32 then none
      else readText? (pushChar acc (some c)) rest
  termination_by cs.length
  decreasing_by all_goals simp_all; try omega

def readString? (cs : List Char) : Option (Option String × List Char) :=
  (readText? (some []) cs).map fun (text, rest) => (text.map String.ofList, rest)

/-! ## Values -/

def objectOf (members : List (Option String × Json)) : Json :=
  match members.mapM fun (name, value) => name.map (·, value) with
  | some named => .object named
  | none => .unreadable

mutual

def readValue? : Nat → List Char → Option (Json × List Char)
  | 0, _ => none
  | fuel + 1, cs =>
      match skipBlanks cs with
      | [] => none
      | 'n' :: 'u' :: 'l' :: 'l' :: rest => some (.null, rest)
      | 't' :: 'r' :: 'u' :: 'e' :: rest => some (.bool true, rest)
      | 'f' :: 'a' :: 'l' :: 's' :: 'e' :: rest => some (.bool false, rest)
      | '"' :: rest =>
          (readString? rest).map fun (text, rest) =>
            (match text with
              | some s => .string s
              | none => .unreadable, rest)
      | '[' :: rest =>
          match skipBlanks rest with
          | ']' :: rest => some (.array [], rest)
          | rest =>
              (readItems? fuel [] rest).map fun (items, rest) =>
                (.array items, rest)
      | '\x7b' :: rest =>
          match skipBlanks rest with
          | '\x7d' :: rest => some (.object [], rest)
          | rest =>
              (readMembers? fuel [] rest).map fun (members, rest) =>
                (objectOf members, rest)
      | rest => readNumber? rest

def readItems? : Nat → List Json → List Char → Option (List Json × List Char)
  | 0, _, _ => none
  | fuel + 1, acc, cs =>
      match readValue? fuel cs with
      | none => none
      | some (item, rest) =>
          match skipBlanks rest with
          | ',' :: rest => readItems? fuel (item :: acc) rest
          | ']' :: rest => some ((item :: acc).reverse, rest)
          | _ => none

def readMembers? : Nat → List (Option String × Json) → List Char →
    Option (List (Option String × Json) × List Char)
  | 0, _, _ => none
  | fuel + 1, acc, cs =>
      match skipBlanks cs with
      | '"' :: rest =>
          match readString? rest with
          | none => none
          | some (name, rest) =>
              match skipBlanks rest with
              | ':' :: rest =>
                  match readValue? fuel rest with
                  | none => none
                  | some (value, rest) =>
                      match skipBlanks rest with
                      | ',' :: rest => readMembers? fuel ((name, value) :: acc) rest
                      | '\x7d' :: rest => some (((name, value) :: acc).reverse, rest)
                      | _ => none
              | _ => none
      | _ => none

end

def parse? (text : String) : Option Json :=
  let cs := text.toList
  match readValue? (cs.length + 1) cs with
  | some (value, rest) => if (skipBlanks rest).isEmpty then some value else none
  | none => none

end ProbeLowering.Json
