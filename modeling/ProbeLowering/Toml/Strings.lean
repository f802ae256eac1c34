import ProbeLowering.Toml.Source

/-!
# Strings

Basic strings have escapes and literal strings have none; both may span lines
when they stand between three quotes.  There a newline right after the opening
quotes is left out, a backslash before a newline takes all blanks that follow
with it, and up to two quotes may come before the closing ones.
-/

namespace ProbeLowering.Toml.Read

def hexValue? (c : Char) : Option Nat :=
  if '0' ≤ c ∧ c ≤ '9' then some (c.toNat - '0'.toNat)
  else if 'a' ≤ c ∧ c ≤ 'f' then some (c.toNat - 'a'.toNat + 10)
  else if 'A' ≤ c ∧ c ≤ 'F' then some (c.toNat - 'A'.toNat + 10)
  else none

def valueOf (base : Nat) (digits : List Char) : Nat :=
  digits.foldl (fun n d => n * base + (hexValue? d).getD 0) 0

def codePoint (n : Nat) : Read Char := do
  let digits ← lookahead n
  if digits.length = n ∧ digits.all fun d => (hexValue? d).isSome then
    let value := valueOf 16 digits
    if value.isValidChar then
      drop n
      return Char.ofNat value
  fail .badEscape

def escape : Read Char := do
  let mark ← peek?
  drop 1
  match mark with
  | some 'b' => pure '\x08'
  | some 'f' => pure '\x0c'
  | some 'n' => pure '\n'
  | some 'r' => pure '\r'
  | some 't' => pure '\t'
  | some '\\' => pure '\\'
  | some '"' => pure '"'
  | some 'u' => codePoint 4
  | some 'U' => codePoint 8
  | _ => fail .badEscape

def isBasic (c : Char) : Bool := isPlain c && c ≠ '"' && c ≠ '\\'

def isLiteral (c : Char) : Bool := isPlain c && c ≠ '\''

def basicText : Nat → Read (List Char)
  | 0 => fail .unexpectedEnd
  | n + 1 => do
      let run ← takeWhile isBasic
      if ← literal? "\\" then
        let c ← escape
        return run ++ c :: (← basicText n)
      pure run

def basicString : Read String := do
  literal "\""
  let text ← basicText (← bound)
  literal "\""
  pure (String.ofList text)

def literalString : Read String := do
  literal "'"
  let text ← takeWhile isLiteral
  literal "'"
  pure (String.ofList text)

def blankLines : Nat → Read Unit
  | 0 => pure ()
  | n + 1 => do
      blanks
      if ← newline? then blankLines n

/-- A backslash at the end of a line, with the newline and all blanks after it. -/
def continuation? : Read Bool := do
  let start ← get
  drop 1
  blanks
  if ← newline? then
    blankLines (← bound)
    pure true
  else
    set start
    pure false

def quotesAhead (quote : Char) : Read Nat :=
  return ((← get).rest.takeWhile (· = quote)).length

/--
Text up to three quotes that close it, where `piece` reads what is no quote.
Of up to five quotes the last three close the text.
-/
def multilineText (quote : Char) (piece : Read (List Char)) : Nat → Read (List Char)
  | 0 => fail .unexpectedEnd
  | n + 1 => do
      match ← quotesAhead quote with
      | 0 => do
          let text ← piece
          return text ++ (← multilineText quote piece n)
      | 1 | 2 => do
          let count ← quotesAhead quote
          drop count
          return List.replicate count quote ++ (← multilineText quote piece n)
      | count => do
          let kept := min (count - 3) 2
          drop (kept + 3)
          pure (List.replicate kept quote)

def basicPiece : Read (List Char) := do
  match ← peek? with
  | none => fail .unexpectedEnd
  | some '\\' => do
      if ← continuation? then pure []
      else
        drop 1
        return [← escape]
  | some c => do
      if isBasic c then takeWhile isBasic
      else
        newline
        pure ['\n']

def literalPiece : Read (List Char) := do
  match ← peek? with
  | none => fail .unexpectedEnd
  | some c => do
      if isLiteral c then takeWhile isLiteral
      else
        newline
        pure ['\n']

def multilineString (quote : Char) (piece : Read (List Char)) : Read String := do
  drop 3
  let _ ← newline?
  let text ← multilineText quote piece (← bound)
  pure (String.ofList text)

def string : Read String := do
  match ← lookahead 3 with
  | ['"', '"', '"'] => multilineString '"' basicPiece
  | ['\'', '\'', '\''] => multilineString '\'' literalPiece
  | '\'' :: _ => literalString
  | _ => basicString

end ProbeLowering.Toml.Read
