import ProbeLowering.Dwarf.Attribute
import ProbeLowering.Dwarf.Tag

/-!
# Abbreviations

An abbreviation gives the tag and the attributes of the entries that refer to
it by its code.  A table ends at code zero and holds each code once.
-/

namespace ProbeLowering.Dwarf

open Decode

structure Abbreviation where
  code : Nat
  tag : Tag
  hasChildren : Bool
  attributes : List AttrSpec
  deriving DecidableEq, Repr

abbrev AbbreviationTable := List Abbreviation

namespace Abbreviation

/-- One attribute specification; the pair of zeros ends the list. -/
def decodeSpec? : Decode (Option AttrSpec) := do
  let name ← uleb128Short
  let form ← uleb128Short
  if name = 0 then
    if form = 0 then return none
    throw .zeroExpected
  if form = 0 then throw .zeroForm
  if form = Form.implicitConst then
    return some ⟨name, form, some (← sleb128)⟩
  return some ⟨name, form, none⟩

def decodeSpecs : Nat → Decode (List AttrSpec)
  | 0 => throw .endOfData
  | n + 1 => do
      match ← decodeSpec? with
      | none => pure []
      | some spec => return spec :: (← decodeSpecs n)

def decode? : Decode (Option Abbreviation) := do
  let code ← uleb128
  if code = 0 then return none
  let tag ← uleb128Short
  if tag = 0 then throw .zeroTag
  let flag ← byte
  if flag > 1 then throw (.badChildrenFlag flag)
  let attributes ← decodeSpecs ((← get).remaining + 1)
  return some ⟨code, tag, flag = 1, attributes⟩

def decodeTable : Nat → AbbreviationTable → Decode AbbreviationTable
  | 0, _ => throw .endOfData
  | n + 1, table => do
      match ← decode? with
      | none => pure table
      | some a =>
          if table.any (·.code == a.code) then throw (.duplicateAbbreviation a.code)
          decodeTable n (table ++ [a])

end Abbreviation

namespace AbbreviationTable

def decodeAt (order : ByteOrder) (section_ : ByteArray) (offset : Nat) :
    Except Fault AbbreviationTable := do
  let c := Cursor.ofBytes order section_
  let ((), c) ← skip offset c
  let (table, _) ← Abbreviation.decodeTable (c.remaining + 1) [] c
  pure table

def lookup? (table : AbbreviationTable) (code : Nat) : Except Fault Abbreviation :=
  match table.find? (·.code == code) with
  | some a => .ok a
  | none => .error (.unknownAbbreviation code)

end AbbreviationTable

end ProbeLowering.Dwarf
