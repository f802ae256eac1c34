import ProbeLowering.Text.Pieces

/-!
# Expressions

An expression is a root followed by fields, separated by dots.  A piece may be
empty, and text without a dot is all root.
-/

namespace ProbeLowering

structure Expression where
  root : String
  fields : List String
  deriving DecidableEq, Repr

namespace Expression

def parse? (text : String) : Option Expression :=
  if text.isEmpty then none
  else
    match Text.pieces '.' text with
    | [] => none
    | root :: fields => some ⟨root, fields⟩

def decimalValue? (digits : List Char) : Option Nat :=
  if digits.isEmpty then none
  else digits.foldlM (fun value d =>
    if d.isDigit then some (value * 10 + (d.toNat - '0'.toNat)) else none) 0

def maxReturnIndex : Nat := 0xffffffff

/-- Index of the placeholder `$n`; a plus sign may stand before the digits. -/
def returnIndex? (root : String) : Option Nat :=
  match root.toList with
  | '$' :: '+' :: digits | '$' :: digits =>
      (decimalValue? digits).filter (· ≤ maxReturnIndex)
  | _ => none

end Expression

end ProbeLowering
