import ProbeLowering.Toml.Strings
import ProbeLowering.Toml.Tree

/-!
# Numbers, dates and truth values

A word is the longest run of characters that these values are made of, and it
is one of them as a whole.  Between two digits of a number there may be an
underscore.  A date may be followed by a time of day after a single blank.
-/

namespace ProbeLowering.Toml

def digitGroups? (isDigit : Char → Bool) : List Char → Option (List Char)
  | [] => none
  | [c] => if isDigit c then some [c] else none
  | c :: '_' :: rest =>
      if isDigit c then (digitGroups? isDigit rest).map (c :: ·) else none
  | c :: rest => if isDigit c then (digitGroups? isDigit rest).map (c :: ·) else none

def decimals? (word : List Char) : Option (List Char) :=
  digitGroups? Char.isDigit word

def whole? (word : List Char) : Option (List Char) := do
  let digits ← decimals? word
  if digits.head? = some '0' ∧ 1 < digits.length then none else some digits

def splitSign : List Char → Bool × List Char
  | '-' :: rest => (true, rest)
  | '+' :: rest => (false, rest)
  | word => (false, word)

def isOctal (c : Char) : Bool := '0' ≤ c && c ≤ '7'

def isBinary (c : Char) : Bool := c = '0' || c = '1'

def fits (n : Int) : Bool :=
  -0x8000000000000000 ≤ n && n < 0x8000000000000000

def based? (base : Nat) (isDigit : Char → Bool) (word : List Char) : Option Int := do
  let digits ← digitGroups? isDigit word
  let value : Int := Read.valueOf base digits
  if fits value then some value else none

def integer? (word : List Char) : Option Int :=
  match word with
  | '0' :: 'x' :: rest => based? 16 (fun c => (Read.hexValue? c).isSome) rest
  | '0' :: 'o' :: rest => based? 8 isOctal rest
  | '0' :: 'b' :: rest => based? 2 isBinary rest
  | _ => do
      let (negative, rest) := splitSign word
      let magnitude : Int := Read.valueOf 10 (← whole? rest)
      let value := if negative then -magnitude else magnitude
      if fits value then some value else none

def isExponentMark (c : Char) : Bool := c = 'e' || c = 'E'

def exponent? : List Char → Option Int
  | [] => some 0
  | mark :: rest => do
      if !isExponentMark mark then none
      let (negative, rest) := splitSign rest
      let magnitude : Int := Read.valueOf 10 (← decimals? rest)
      some (if negative then -magnitude else magnitude)

def fraction? (word : List Char) : Option (List Char × List Char) :=
  match word with
  | '.' :: rest =>
      let (digits, rest) := rest.span fun c => !isExponentMark c
      (decimals? digits).map (·, rest)
  | _ => some ([], word)

/-- A number with a fraction or an exponent; only a negative one may be too large. -/
def decimalFloat? (negative : Bool) (word : List Char) : Option Binary64 := do
  let (digits, rest) := word.span fun c => c != '.' && !isExponentMark c
  if rest.isEmpty then none
  let digits ← whole? digits
  let (fraction, rest) ← fraction? rest
  let exponent ← exponent? rest
  let value := Binary64.ofDecimal negative (Read.valueOf 10 (digits ++ fraction))
    (exponent - fraction.length)
  if value = .infinite false then none else some value

def float? (word : List Char) : Option Binary64 :=
  let (negative, rest) := splitSign word
  match rest with
  | ['i', 'n', 'f'] => some (.infinite negative)
  | ['n', 'a', 'n'] => some .nan
  | _ => decimalFloat? negative rest

def twoDigits (low high : Nat) (a b : Char) : Bool :=
  a.isDigit && b.isDigit && low ≤ Read.valueOf 10 [a, b] &&
    Read.valueOf 10 [a, b] ≤ high

def isLeapYear (year : Nat) : Bool :=
  year % 4 = 0 && (year % 100 ≠ 0 || year % 400 = 0)

def daysInMonth (year month : Nat) : Nat :=
  if month = 2 then (if isLeapYear year then 29 else 28)
  else if [4, 6, 9, 11].contains month then 30
  else 31

def splitDate? : List Char → Option (List Char)
  | a :: b :: c :: d :: '-' :: e :: f :: '-' :: g :: h :: rest =>
      let year := [a, b, c, d]
      let month := Read.valueOf 10 [e, f]
      if year.all Char.isDigit && twoDigits 1 12 e f &&
          twoDigits 1 (daysInMonth (Read.valueOf 10 year) month) g h
      then some rest else none
  | _ => none

def afterFraction? : List Char → Option (List Char)
  | '.' :: rest =>
      let (digits, rest) := rest.span Char.isDigit
      if digits.isEmpty then none else some rest
  | rest => some rest

def splitTime? : List Char → Option (List Char)
  | a :: b :: ':' :: c :: d :: ':' :: e :: f :: rest =>
      if twoDigits 0 23 a b && twoDigits 0 59 c d && twoDigits 0 60 e f then
        afterFraction? rest
      else none
  | _ => none

def isOffset : List Char → Bool
  | [] | ['Z'] | ['z'] => true
  | [sign, a, b, ':', c, d] =>
      (sign = '+' || sign = '-') && twoDigits 0 23 a b && twoDigits 0 59 c d
  | _ => false

def isTimeDelimiter (c : Char) : Bool := c = 'T' || c = 't' || c = ' '

def isDatetime (word : List Char) : Bool :=
  match splitDate? word with
  | some [] => true
  | some (delimiter :: rest) =>
      isTimeDelimiter delimiter && (splitTime? rest).any isOffset
  | none => splitTime? word = some []

def isWordChar (c : Char) : Bool :=
  c.isAlphanum || c = '_' || c = '+' || c = '-' || c = '.' || c = ':'

def scalar? (word : List Char) : Option Scalar :=
  if word = "true".toList then some (.boolean true)
  else if word = "false".toList then some (.boolean false)
  else if isDatetime word then some .datetime
  else match float? word with
    | some value => some (.float value)
    | none => (integer? word).map .integer

namespace Read

/-- A time of day goes on a date when exactly one blank and a digit follow. -/
def timeOfDay (date : List Char) : Read (List Char) := do
  if splitDate? date = some [] then
    match ← lookahead 2 with
    | [' ', c] =>
        if c.isDigit then
          drop 1
          return date ++ ' ' :: (← takeWhile isWordChar)
    | _ => pure ()
  pure date

def scalar : Read Scalar := do
  let start ← position
  let word ← timeOfDay (← takeWhile isWordChar)
  if word.isEmpty then expected "a value"
  match scalar? word with
  | some value => pure value
  | none => throw ⟨.badNumber (String.ofList word), start⟩

end Read

end ProbeLowering.Toml
