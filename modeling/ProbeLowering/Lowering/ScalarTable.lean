import ProbeLowering.Lowering.Error

/-!
# Scalar types of debug types

Tables that say under which scalar type a value of a debug type is
transported.  Pointers travel as addresses whatever they point to; a record
has a scalar type only where the language gives it one of its own.
-/

namespace ProbeLowering

open DebugInfo

def goBaseType? : String → Option ScalarType
  | "bool" => some .bool
  | "int" => some .int
  | "int8" => some .int8
  | "int16" => some .int16
  | "int32" => some .int32
  | "int64" => some .int64
  | "uint" => some .uint
  | "uint8" => some .uint8
  | "uint16" => some .uint16
  | "uint32" => some .uint32
  | "uint64" => some .uint64
  | "float32" => some .float
  | "float64" => some .double
  | _ => none

def cBaseType? : String → Option ScalarType
  | "bool" => some .bool
  | "short" => some .short
  | "unsigned short" => some .ushort
  | "int" => some .int
  | "unsigned int" => some .uint
  | "long int" => some .long
  | "long unsigned int" => some .ulong
  | "long long int" => some .longLong
  | "long long unsigned int" => some .ulongLong
  | "char" | "signed char" => some .char
  | "unsigned char" => some .uchar
  | "double" => some .double
  | "float" => some .float
  | _ => none

/-- Go records that are transported as one value. -/
def goStructType? : String → Option ScalarType
  | "string" => some .string
  | "[]uint8" | "[]byte" => some .byteArray
  | _ => none

def Language.baseType? : Language → String → Option ScalarType
  | go, name => goBaseType? name
  | c, name | cpp, name => cBaseType? name
  | unknown, _ => none

def Language.structType? : Language → String → Option ScalarType
  | go, name => goStructType? name
  | _, _ => none

def resolveScalarType (language : Language) (kind : VarKind) (typeName : String) :
    Except LowerError ScalarType :=
  match kind with
  | .base =>
      match language.baseType? typeName with
      | some type => .ok type
      | none => .error (.unresolvedBaseType language typeName)
  | .pointer => .ok .voidPointer
  | .struct =>
      match language.structType? typeName with
      | some type => .ok type
      | none => .error (.unhandledType .struct typeName)
  | .void => .error (.unhandledType .void typeName)

end ProbeLowering
