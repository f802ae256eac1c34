import ProbeLowering.Binary.Cursor

/-!
# ELF images

The sections of an ELF image by name, for 32 and 64 bits and both byte orders.
An image is refused when its headers, section names or symbol tables do not
fit the file; what the sections hold is checked only when it is asked for.
-/

namespace ProbeLowering.Elf

inductive Class where
  | elf32
  | elf64
  deriving DecidableEq, Repr

namespace Class

def wordSize : Class → Nat
  | elf32 => 4
  | elf64 => 8

def programHeaderSize : Class → Nat
  | elf32 => 32
  | elf64 => 56

def sectionHeaderSize : Class → Nat
  | elf32 => 40
  | elf64 => 64

end Class

structure Header where
  elfClass : Class
  order : ByteOrder
  programOffset : Nat
  sectionOffset : Nat
  programEntrySize : Nat
  programCount : Nat
  sectionEntrySize : Nat
  sectionCount : Nat
  nameIndex : Nat
  deriving DecidableEq, Repr

structure SectionHeader where
  nameOffset : Nat
  type : Nat
  flags : Nat
  offset : Nat
  size : Nat
  link : Nat
  info : Nat
  deriving DecidableEq, Repr

namespace SectionType

def symbols : Nat := 2
def strings : Nat := 3
def relocationsAddend : Nat := 4
def noBits : Nat := 8
def relocations : Nat := 9
def dynamicSymbols : Nat := 11
def extendedIndices : Nat := 18

def isRelocation (type : Nat) : Bool :=
  type == relocations || type == relocationsAddend

end SectionType

def compressedFlag : Nat := 0x800

def range? (file : ByteArray) (offset size : Nat) : Option ByteArray :=
  if offset + size ≤ file.size then some (file.extract offset (offset + size))
  else none

def readAt {α : Type} (file : ByteArray) (order : ByteOrder) (offset : Nat)
    (decode : Decode α) : Except String α :=
  match decode { Cursor.ofBytes order file with pos := offset } with
  | .ok (value, _) => .ok value
  | .error e => .error e.message

/-! ## Headers -/

def decodeHeader (elfClass : Class) (order : ByteOrder) : Decode Header := do
  let word := elfClass.wordSize
  Decode.skip 24
  Decode.skip word
  let programOffset ← Decode.word word
  let sectionOffset ← Decode.word word
  Decode.skip 6
  let programEntrySize ← Decode.word 2
  let programCount ← Decode.word 2
  let sectionEntrySize ← Decode.word 2
  let sectionCount ← Decode.word 2
  let nameIndex ← Decode.word 2
  pure { elfClass, order, programOffset, sectionOffset, programEntrySize, programCount,
         sectionEntrySize, sectionCount, nameIndex }

def identify (file : ByteArray) : Except String (Class × ByteOrder) := do
  if file.size < 16 then throw "file is too short"
  let ident := (file.extract 0 16).toList.map UInt8.toNat
  let [0x7F, 0x45, 0x4C, 0x46, elfClass, data, version] := ident.take 7
    | throw "unknown file magic"
  let elfClass ← match elfClass with
    | 1 => .ok .elf32
    | 2 => .ok .elf64
    | _ => .error "unknown file magic"
  let order ← match data with
    | 1 => .ok .little
    | 2 => .ok .big
    | _ => .error "unsupported ELF header"
  if version ≠ 1 then throw "unsupported ELF header"
  pure (elfClass, order)

def readHeader (file : ByteArray) : Except String Header := do
  let (elfClass, order) ← identify file
  readAt file order 0 (decodeHeader elfClass order)

def decodeSectionHeader (elfClass : Class) : Decode SectionHeader := do
  let word := elfClass.wordSize
  let nameOffset ← Decode.word 4
  let type ← Decode.word 4
  let flags ← Decode.word word
  Decode.skip word
  let offset ← Decode.word word
  let size ← Decode.word word
  let link ← Decode.word 4
  let info ← Decode.word 4
  pure { nameOffset, type, flags, offset, size, link, info }

namespace Header

def readSection (h : Header) (file : ByteArray) (index : Nat) :
    Except String SectionHeader :=
  let size := h.elfClass.sectionHeaderSize
  readAt file h.order (h.sectionOffset + index * size)
    (decodeSectionHeader h.elfClass)

def firstSection? (h : Header) (file : ByteArray) :
    Except String (Option SectionHeader) := do
  if h.sectionOffset = 0 then return none
  if h.sectionEntrySize ≠ h.elfClass.sectionHeaderSize then
    throw "invalid section header entry size"
  let size := h.elfClass.sectionHeaderSize
  if (range? file h.sectionOffset size).isNone then
    throw "invalid section header offset"
  pure (some (← h.readSection file 0))

def programHeaderCount (h : Header) (file : ByteArray) : Except String Nat := do
  if h.programCount < 0xFFFF then return h.programCount
  match ← h.firstSection? file with
  | some first => pure first.info
  | none => throw "missing section headers for the number of program headers"

def checkPrograms (h : Header) (file : ByteArray) : Except String Unit := do
  if h.programOffset = 0 then return
  let count ← h.programHeaderCount file
  if count = 0 then return
  if h.programEntrySize ≠ h.elfClass.programHeaderSize then
    throw "invalid program header entry size"
  let size := count * h.elfClass.programHeaderSize
  if (range? file h.programOffset size).isNone then
    throw "invalid program header offset"

def sectionHeaderCount (h : Header) (file : ByteArray) : Except String Nat := do
  if h.sectionCount ≠ 0 then return h.sectionCount
  match ← h.firstSection? file with
  | some first => pure first.size
  | none => pure 0

def sections (h : Header) (file : ByteArray) : Except String (List SectionHeader) := do
  if h.sectionOffset = 0 then return []
  let count ← h.sectionHeaderCount file
  if count = 0 then return []
  if h.sectionEntrySize ≠ h.elfClass.sectionHeaderSize then
    throw "invalid section header entry size"
  let size := count * h.elfClass.sectionHeaderSize
  if (range? file h.sectionOffset size).isNone then
    throw "invalid section header offset"
  (List.range count).mapM (h.readSection file)

def nameSectionIndex (h : Header) (file : ByteArray) : Except String Nat := do
  let index ←
    if h.nameIndex ≠ 0xFFFF then pure h.nameIndex
    else match ← h.firstSection? file with
      | some first => pure first.link
      | none => throw "missing section headers for the section names"
  if index = 0 then throw "missing section names"
  pure index

end Header

/-! ## Contents -/

namespace SectionHeader

def fileRange? (s : SectionHeader) : Option (Nat × Nat) :=
  if s.type = SectionType.noBits then none else some (s.offset, s.size)

def contents (s : SectionHeader) (file : ByteArray) : Except String ByteArray :=
  match s.fileRange? with
  | none => .ok .empty
  | some (offset, size) =>
      match range? file offset size with
      | some bytes => .ok bytes
      | none => .error "invalid section size or offset"

def plainContents (s : SectionHeader) (file : ByteArray) : Except String ByteArray :=
  if (s.flags / compressedFlag) % 2 = 1 then .error "compressed section"
  else s.contents file

end SectionHeader

structure Image where
  order : ByteOrder
  file : ByteArray
  sections : List SectionHeader
  names : Option ByteArray

def readNames (file : ByteArray) (h : Header) (sections : List SectionHeader) :
    Except String (Option ByteArray) := do
  if sections.isEmpty then return none
  let index ← h.nameSectionIndex file
  match sections[index]? with
  | none => throw "invalid index of the section names"
  | some s =>
      match s.fileRange? with
      | none => pure none
      | some (offset, size) =>
          if offset + size < 0x10000000000000000 then pure (range? file offset size)
          else throw "invalid size of the section names"

def checkSymbols (file : ByteArray) (sections : List SectionHeader) (type : Nat) :
    Except String Unit := do
  let some index := sections.findIdx? (·.type == type) | return
  let some table := sections[index]? | return
  let _ ← table.contents file
  match sections[table.link]? with
  | none => throw "invalid section index"
  | some strings =>
      if strings.type ≠ SectionType.strings then throw "invalid string section type"
      if strings.offset + strings.size ≥ 0x10000000000000000 then
        throw "invalid string section size"
  for s in sections do
    if s.type = SectionType.extendedIndices && s.link = index then
      let _ ← s.contents file

def checkRelocations (sections : List SectionHeader) : Except String Unit := do
  let symbols := (sections.findIdx? (·.type == SectionType.symbols)).getD 0
  for s in sections.reverse do
    if SectionType.isRelocation s.type && s.link = symbols && s.info ≠ 0 then
      match sections[s.info]? with
      | none => throw "invalid target of a relocation section"
      | some target =>
          if SectionType.isRelocation target.type then
            throw "relocation section applies to relocations"

def parse (file : ByteArray) : Except String Image := do
  let header ← readHeader file
  header.checkPrograms file
  let sections ← header.sections file
  let names ← readNames file header sections
  checkSymbols file sections SectionType.symbols
  checkSymbols file sections SectionType.dynamicSymbols
  checkRelocations sections
  pure { order := header.order, file, sections, names }

namespace Image

def sectionName? (image : Image) (s : SectionHeader) : Option ByteArray := do
  let names ← image.names
  match Decode.zeroTerminated
      { Cursor.ofBytes image.order names with pos := s.nameOffset } with
  | .ok (name, _) => some name
  | .error _ => none

def section? (image : Image) (name : String) : Option SectionHeader :=
  image.sections.find? fun s =>
    (image.sectionName? s).any fun bytes => bytes.toList == name.toUTF8.toList

def contents? (image : Image) (name : String) : Except String (Option ByteArray) :=
  match image.section? name with
  | none => .ok none
  | some s => (s.plainContents image.file).map some

end Image

end ProbeLowering.Elf
