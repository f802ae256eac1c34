/-!
# Decoding faults

Why bytes cannot be decoded.  The constructors tell the reader of a message
what is wrong; nothing depends on which of them is raised.
-/

namespace ProbeLowering

inductive Fault where
  | endOfData
  | badUnsignedLeb128
  | badSignedLeb128
  | reservedLength (value : Nat)
  | unknownVersion (version : Nat)
  | unsupportedAddressSize (size : Nat)
  | unsupportedUnitType (type : Nat)
  | unsupportedSegmentSize
  | zeroTag
  | zeroForm
  | zeroExpected
  | badChildrenFlag (flag : Nat)
  | duplicateAbbreviation (code : Nat)
  | unknownAbbreviation (code : Nat)
  | unknownForm (form : Nat)
  | missingConstant
  | missingRoot
  | offsetOutOfBounds (offset : Nat)
  | nullEntry (offset : Nat)
  | stringExpected
  | unknownOperation (opcode : Nat)
  | unsupportedRegister (register : Nat)
  | zeroInstructionLength
  | zeroOperationCount
  | zeroLineRange
  | zeroOpcodeBase
  | missingPathFormat
  deriving DecidableEq, Repr

namespace Fault

def message : Fault → String
  | endOfData => "data ends in the middle of an item"
  | badUnsignedLeb128 => "unsigned LEB128 number does not fit 64 bits"
  | badSignedLeb128 => "signed LEB128 number does not fit 64 bits"
  | reservedLength value => s!"reserved unit length {value}"
  | unknownVersion version => s!"unknown version {version}"
  | unsupportedAddressSize size => s!"unsupported address size {size}"
  | unsupportedUnitType type => s!"unsupported unit type {type}"
  | unsupportedSegmentSize => "segment selectors are not supported"
  | zeroTag => "abbreviation with tag zero"
  | zeroForm => "attribute with form zero"
  | zeroExpected => "attribute name zero without form zero"
  | badChildrenFlag flag => s!"children flag {flag} is neither 0 nor 1"
  | duplicateAbbreviation code => s!"abbreviation {code} occurs twice"
  | unknownAbbreviation code => s!"abbreviation {code} does not exist"
  | unknownForm form => s!"unknown attribute form {form}"
  | missingConstant => "implicit constant without a value"
  | missingRoot => "unit without entries"
  | offsetOutOfBounds offset => s!"offset {offset} is outside its unit"
  | nullEntry offset => s!"null entry at offset {offset}"
  | stringExpected => "attribute is not a string"
  | unknownOperation opcode => s!"unknown expression operation {opcode}"
  | unsupportedRegister register => s!"unsupported register {register}"
  | zeroInstructionLength => "minimum instruction length is zero"
  | zeroOperationCount => "maximum number of operations is zero"
  | zeroLineRange => "line range is zero"
  | zeroOpcodeBase => "opcode base is zero"
  | missingPathFormat => "file entries do not have exactly one path"

end Fault

end ProbeLowering
