import ProbeLowering.Json.Tree

/-!
# JSON text

A tree is written on one line without blanks, or over several lines with two
blanks of indentation per level.  Inside strings only quotes, backslashes and
control characters are escaped, so written text holds no raw control character.
-/

namespace ProbeLowering.Json

def hexDigit (n : Nat) : Char :=
  if n < 10 then Char.ofNat ('0'.toNat + n) else Char.ofNat ('a'.toNat + (n - 10))

def escapeChar (c : Char) : List Char :=
  if c = '"' then ['\\', '"']
  else if c = '\\' then ['\\', '\\']
  else if c = '\n' then ['\\', 'n']
  else if c = '\r' then ['\\', 'r']
  else if c = '\t' then ['\\', 't']
  else if c.toNat = 8 then ['\\', 'b']
  else if c.toNat = 12 then ['\\', 'f']
  else if c.toNat < 32 then
    ['\\', 'u', '0', '0', hexDigit (c.toNat / 16), hexDigit (c.toNat % 16)]
  else [c]

def quoted (s : String) : List Char :=
  '"' :: (s.toList.flatMap escapeChar ++ ['"'])

/-- How a tree is laid out: on one line, or indented from the given depth on. -/
inductive Layout where
  | compact
  | indented (depth : Nat)
  deriving DecidableEq, Repr

namespace Layout

def deeper : Layout → Layout
  | compact => compact
  | indented depth => indented (depth + 1)

def lineBreak : Layout → List Char
  | compact => []
  | indented depth => '\n' :: List.replicate (2 * depth) ' '

def colon : Layout → List Char
  | compact => [':']
  | indented _ => [':', ' ']

end Layout

mutual

def write (layout : Layout) : Json → List Char
  | null | unreadable => "null".toList
  | bool true => "true".toList
  | bool false => "false".toList
  | int value => (toString value).toList
  | decimal text => text.toList
  | string value => quoted value
  | array [] => ['[', ']']
  | array (item :: rest) =>
      '[' :: (layout.deeper.lineBreak ++ write layout.deeper item
        ++ writeItems layout.deeper rest ++ layout.lineBreak ++ [']'])
  | object [] => ['\x7b', '\x7d']
  | object ((name, value) :: rest) =>
      '\x7b' :: (layout.deeper.lineBreak ++ quoted name ++ layout.colon
        ++ write layout.deeper value
        ++ writeMembers layout.deeper rest ++ layout.lineBreak ++ ['\x7d'])

def writeItems (layout : Layout) : List Json → List Char
  | [] => []
  | item :: rest =>
      ',' :: (layout.lineBreak ++ write layout item ++ writeItems layout rest)

def writeMembers (layout : Layout) : List (String × Json) → List Char
  | [] => []
  | (name, value) :: rest =>
      ',' :: (layout.lineBreak ++ quoted name ++ layout.colon
        ++ write layout value ++ writeMembers layout rest)

end

def compact (tree : Json) : String := String.ofList (write .compact tree)

def pretty (tree : Json) : String := String.ofList (write (.indented 0) tree)

end ProbeLowering.Json
