/-!
# Tags

A tag is the number that says what an entry describes.  Messages give tags by
name.
-/

namespace ProbeLowering.Dwarf

abbrev Tag := Nat

namespace Tag

def arrayType : Tag := 0x01
def classType : Tag := 0x02
def enumerationType : Tag := 0x04
def formalParameter : Tag := 0x05
def member : Tag := 0x0d
def pointerType : Tag := 0x0f
def referenceType : Tag := 0x10
def structureType : Tag := 0x13
def typedef : Tag := 0x16
def unionType : Tag := 0x17
def baseType : Tag := 0x24
def constType : Tag := 0x26
def subprogram : Tag := 0x2e
def volatileType : Tag := 0x35
def restrictType : Tag := 0x37
def unspecifiedType : Tag := 0x3b
def rvalueReferenceType : Tag := 0x42
def atomicType : Tag := 0x47

/-- Names and qualifiers stand for the type they refer to. -/
def isAlias (tag : Tag) : Bool :=
  [typedef, constType, volatileType, restrictType, atomicType].contains tag

def isPointer (tag : Tag) : Bool :=
  [pointerType, referenceType, rvalueReferenceType].contains tag

def isRecord (tag : Tag) : Bool :=
  [structureType, classType, unionType].contains tag

def isAggregate (tag : Tag) : Bool :=
  isRecord tag || tag == arrayType

def names : List (Nat × String) :=
  [(0x00, "null"), (0x01, "array_type"), (0x02, "class_type"), (0x03, "entry_point"),
   (0x04, "enumeration_type"), (0x05, "formal_parameter"),
   (0x08, "imported_declaration"), (0x0a, "label"), (0x0b, "lexical_block"),
   (0x0d, "member"), (0x0f, "pointer_type"), (0x10, "reference_type"),
   (0x11, "compile_unit"), (0x12, "string_type"), (0x13, "structure_type"),
   (0x15, "subroutine_type"), (0x16, "typedef"), (0x17, "union_type"),
   (0x18, "unspecified_parameters"), (0x19, "variant"), (0x1a, "common_block"),
   (0x1b, "common_inclusion"), (0x1c, "inheritance"), (0x1d, "inlined_subroutine"),
   (0x1e, "module"), (0x1f, "ptr_to_member_type"), (0x20, "set_type"),
   (0x21, "subrange_type"), (0x22, "with_stmt"), (0x23, "access_declaration"),
   (0x24, "base_type"), (0x25, "catch_block"), (0x26, "const_type"),
   (0x27, "constant"), (0x28, "enumerator"), (0x29, "file_type"), (0x2a, "friend"),
   (0x2b, "namelist"), (0x2c, "namelist_item"), (0x2d, "packed_type"),
   (0x2e, "subprogram"), (0x2f, "template_type_parameter"),
   (0x30, "template_value_parameter"), (0x31, "thrown_type"), (0x32, "try_block"),
   (0x33, "variant_part"), (0x34, "variable"), (0x35, "volatile_type"),
   (0x36, "dwarf_procedure"), (0x37, "restrict_type"), (0x38, "interface_type"),
   (0x39, "namespace"), (0x3a, "imported_module"), (0x3b, "unspecified_type"),
   (0x3c, "partial_unit"), (0x3d, "imported_unit"), (0x3f, "condition"),
   (0x40, "shared_type"), (0x41, "type_unit"), (0x42, "rvalue_reference_type"),
   (0x43, "template_alias"), (0x44, "coarray_type"), (0x45, "generic_subrange"),
   (0x46, "dynamic_type"), (0x47, "atomic_type"), (0x48, "call_site"),
   (0x49, "call_site_parameter"), (0x4a, "skeleton_unit"), (0x4b, "immutable_type"),
   (0x4080, "lo_user"), (0x4081, "MIPS_loop"), (0x4090, "HP_array_descriptor"),
   (0x4091, "HP_Bliss_field"), (0x4092, "HP_Bliss_field_set"),
   (0x4101, "format_label"), (0x4102, "function_template"),
   (0x4103, "class_template"), (0x4104, "GNU_BINCL"), (0x4105, "GNU_EINCL"),
   (0x4106, "GNU_template_template_param"), (0x4107, "GNU_template_parameter_pack"),
   (0x4108, "GNU_formal_parameter_pack"), (0x4109, "GNU_call_site"),
   (0x410a, "GNU_call_site_parameter"), (0x4200, "APPLE_property"),
   (0x4201, "SUN_function_template"), (0x4202, "SUN_class_template"),
   (0x4203, "SUN_struct_template"), (0x4204, "SUN_union_template"),
   (0x4205, "SUN_indirect_inheritance"), (0x4206, "SUN_codeflags"),
   (0x4207, "SUN_memop_info"), (0x4208, "SUN_omp_child_func"),
   (0x4209, "SUN_rtti_descriptor"), (0x420a, "SUN_dtor_info"), (0x420b, "SUN_dtor"),
   (0x420c, "SUN_f90_interface"), (0x420d, "SUN_fortran_vax_structure"),
   (0x42ff, "SUN_hi"), (0x5101, "ALTIUM_circ_type"), (0x5102, "ALTIUM_mwa_circ_type"),
   (0x5103, "ALTIUM_rev_carry_type"), (0x5111, "ALTIUM_rom"),
   (0x8765, "upc_shared_type"), (0x8766, "upc_strict_type"),
   (0x8767, "upc_relaxed_type"), (0xa000, "PGI_kanji_type"),
   (0xa020, "PGI_interface_block"), (0xb000, "BORLAND_property"),
   (0xb001, "BORLAND_Delphi_string"), (0xb002, "BORLAND_Delphi_dynamic_array"),
   (0xb003, "BORLAND_Delphi_set"), (0xb004, "BORLAND_Delphi_variant"),
   (0xffff, "hi_user")]

def display (tag : Tag) : String :=
  match names.lookup tag with
  | some name => "DW_TAG_" ++ name
  | none => s!"Unknown DwTag: {tag}"

end Tag

end ProbeLowering.Dwarf
