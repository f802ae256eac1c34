import ProbeLowering.Proofs.FirstEntries
import ProbeLowering.Proofs.Placement
import ProbeLowering.Proofs.TypeNames

/-!
# Members of described records

Types go from one lookup to the next by their names alone.  The name that a parameter is
reported with is that of the record that its type comes to, and the members under this
name are those of the first record that bears it, in the order of the units and depth first
in each (`members_of_described`).  Two records of one name are told apart by their order
only: the members of the second one are never found (`members_of_later_record`).
-/

namespace ProbeLowering

namespace Dwarf

open DebugInfo (LookupError ArgInfo MemberInfo)

instance decidableEqExcept {ε α : Type} [DecidableEq ε] [DecidableEq α] :
    DecidableEq (Except ε α)
  | .ok a, .ok b => decidable_of_iff (a = b) (by simp)
  | .error a, .error b => decidable_of_iff (a = b) (by simp)
  | .ok _, .error _ | .error _, .ok _ => isFalse nofun

/-- What a lookup of records asks of the entries of a unit can be decoded. -/
def CompilationUnit.RecordsDecode (unit : CompilationUnit) : Prop :=
  unit.entries.fault = none ∧ ∀ die ∈ unit.entries.items,
    die.isDeclaration.isOk ∧ (ownText? unit die AttrName.name).isOk

def CompilationUnit.Decodes (unit : CompilationUnit) : Prop :=
  unit.RecordsDecode ∧ ∀ die ∈ unit.entries.items,
    (unit.childrenAt die.offset).fault = none ∧
    ∀ child ∈ (unit.childrenAt die.offset).items, (ownText? unit child AttrName.name).isOk

instance : DecidablePred CompilationUnit.RecordsDecode := fun _ =>
  inferInstanceAs (Decidable (_ ∧ _))

instance : DecidablePred CompilationUnit.Decodes := fun _ =>
  inferInstanceAs (Decidable (_ ∧ _))

/-- The entry is a record of this name and not only announced. -/
def Defines (name : String) (unit : CompilationUnit) (die : Die) : Prop :=
  die.tag.isRecord = true ∧ die.isDeclaration = .ok false ∧
    ownText? unit die AttrName.name = .ok (some name)

def IsMember (field : String) (unit : CompilationUnit) (die : Die) : Prop :=
  die.tag = Tag.member ∧ ownText? unit die AttrName.name = .ok (some field)

instance (name : String) (unit : CompilationUnit) : DecidablePred (Defines name unit) :=
  fun _ => inferInstanceAs (Decidable (_ ∧ _ ∧ _))

instance (field : String) (unit : CompilationUnit) : DecidablePred (IsMember field unit) :=
  fun _ => inferInstanceAs (Decidable (_ ∧ _))

/-- The field is that of a member of this record, the first of the name, or it is missing. -/
def AnswersFrom (units : Listing CompilationUnit) (name field : String)
    (unit : CompilationUnit) (record : Die) : Prop :=
  (∃ member, (unit.childrenAt record.offset).IsFirst (IsMember field unit) member ∧
    memberOf units name field = memberInfo unit member) ∨
  (∀ member ∈ (unit.childrenAt record.offset).items, ¬ IsMember field unit member) ∧
    memberOf units name field = .error (.memberNotFound name field)

section Records

variable {units : Listing CompilationUnit} {unit : CompilationUnit} {name field : String}
  {record member : Die}

theorem exists_of_isOk {ε α : Type} {outcome : Except ε α} (h : outcome.isOk = true) :
    ∃ value, outcome = .ok value := by
  cases outcome with
  | error e => cases h
  | ok value => exact ⟨value, rfl⟩

theorem isRecord_of_defines (h : Defines name unit record) :
    isRecord name unit record = .ok true := by
  obtain ⟨htag, hdeclaration, hname⟩ := h
  simp [isRecord, htag, hdeclaration, hname]

theorem defines_of_isRecord (h : isRecord name unit record = .ok true) :
    Defines name unit record := by
  unfold isRecord at h
  split at h
  next => cases h
  next htag =>
    obtain ⟨announced, hannounced, h⟩ := exists_ok_of_bind h
    cases announced with
    | true => cases h
    | false =>
        obtain ⟨own, hown, h⟩ := exists_ok_of_bind h
        have hname : own = some name := by simpa using h
        exact ⟨by simpa using htag, hannounced, hname ▸ hown⟩

theorem isRecord_of_not_defines (hdeclaration : record.isDeclaration.isOk)
    (hname : (ownText? unit record AttrName.name).isOk) (h : ¬ Defines name unit record) :
    isRecord name unit record = .ok false := by
  obtain ⟨announced, hannounced⟩ := exists_of_isOk hdeclaration
  obtain ⟨own, hown⟩ := exists_of_isOk hname
  unfold isRecord
  by_cases htag : record.tag.isRecord = true
  · cases announced with
    | true => simp [htag, hannounced]
    | false =>
        have hother : own ≠ some name := fun heq => h ⟨htag, hannounced, heq ▸ hown⟩
        simp [htag, hannounced, hown, hother]
  · simp [htag]

theorem isMember_of_isMember (h : IsMember field unit member) :
    isMember field unit member = .ok true := by
  obtain ⟨htag, hname⟩ := h
  simp [isMember, htag, hname]

theorem isMember_iff : isMember field unit member = .ok true ↔ IsMember field unit member := by
  refine ⟨fun h => ?_, isMember_of_isMember⟩
  unfold isMember at h
  split at h
  next => cases h
  next htag =>
    obtain ⟨own, hown, h⟩ := exists_ok_of_bind h
    have hname : own = some field := by simpa using h
    exact ⟨by simpa using htag, hname ▸ hown⟩

theorem isMember_of_not_isMember (hname : (ownText? unit member AttrName.name).isOk)
    (h : ¬ IsMember field unit member) : isMember field unit member = .ok false := by
  obtain ⟨own, hown⟩ := exists_of_isOk hname
  unfold isMember
  by_cases htag : member.tag = Tag.member
  · have hother : own ≠ some field := fun heq => h ⟨htag, heq ▸ hown⟩
    simp [htag, hown, hother]
  · simp [htag]

theorem firstEntry_of_findRecord (h : findRecord units name = .ok (unit, record)) :
    FirstEntry units (Defines name) unit record := by
  obtain ⟨found?, hfound, h⟩ := exists_ok_of_bind h
  cases found? with
  | none => cases h
  | some found =>
      cases h
      have hfirst := firstEntry_of_findDie? (decoded_ok.mp hfound)
      have hdefines : (fun unit die => isRecord name unit die = .ok true) = Defines name := by
        funext unit die
        exact propext ⟨defines_of_isRecord, isRecord_of_defines⟩
      rwa [hdefines] at hfirst

theorem decides_isRecord (hdecodes : ∀ unit ∈ units.items, unit.RecordsDecode) (name : String) :
    Decides units (isRecord name) (Defines name) where
  complete unit hunit := (hdecodes unit hunit).1
  passes _ _ _ _ := isRecord_of_defines
  fails unit hunit die hdie :=
    isRecord_of_not_defines ((hdecodes unit hunit).2 die hdie).1
      ((hdecodes unit hunit).2 die hdie).2

variable (hdecodes : ∀ unit ∈ units.items, unit.Decodes)

include hdecodes

theorem findRecord_of_first (h : FirstEntry units (Defines name) unit record) :
    findRecord units name = .ok (unit, record) := by
  rw [findRecord, (decides_isRecord (fun unit hunit => (hdecodes unit hunit).1)
    name).findDie?_of_first h]
  rfl

theorem answersFrom_of_first (h : FirstEntry units (Defines name) unit record)
    (field : String) : AnswersFrom units name field unit record := by
  have hrecord := findRecord_of_first hdecodes h
  obtain ⟨hcomplete, hnames⟩ := (hdecodes unit h.1.mem).2 record h.2.mem
  have hfails : ∀ member ∈ (unit.childrenAt record.offset).items,
      ¬ IsMember field unit member → isMember field unit member = .ok false :=
    fun member hmember => isMember_of_not_isMember (hnames member hmember)
  by_cases hany : ∃ member ∈ (unit.childrenAt record.offset).items, IsMember field unit member
  · obtain ⟨member, hmember, hfield⟩ := hany
    obtain ⟨first, hfirst⟩ := Listing.exists_isFirst hmember hfield
    have hfind := Listing.findM?_of_isFirst hfirst hfails (isMember_of_isMember hfirst.holds)
    refine .inl ⟨first, hfirst, ?_⟩
    rw [memberOf, hrecord]
    simp only [ok_bind, hfind, decoded, Except.mapError]
  · have hnone : ∀ member ∈ (unit.childrenAt record.offset).items,
        ¬ IsMember field unit member := fun member hmember hfield => hany ⟨member, hmember, hfield⟩
    have hfind := Listing.findM?_of_forall (fun member hmember =>
      hfails member hmember (hnone member hmember)) hcomplete
    refine .inr ⟨hnone, ?_⟩
    rw [memberOf, hrecord]
    simp only [ok_bind, hfind, decoded, Except.mapError]
    rfl

omit hdecodes in
theorem AnswersFrom.memberInfo_eq
    (hdistinct : (unit.childrenAt record.offset).items.Pairwise fun a b =>
      ∀ field, IsMember field unit a → ¬ IsMember field unit b)
    (hmem : member ∈ (unit.childrenAt record.offset).items) (hfield : IsMember field unit member)
    (h : AnswersFrom units name field unit record) :
    memberOf units name field = memberInfo unit member := by
  rcases h with ⟨first, ⟨before, after, hitems, hbefore, hfirst⟩, hanswer⟩ | ⟨hnone, -⟩
  · rw [hitems, List.pairwise_append, List.pairwise_cons] at hdistinct
    rw [hitems, List.mem_append, List.mem_cons] at hmem
    rcases hmem with hmem | rfl | hmem
    · exact absurd hfield (hbefore member hmem)
    · exact hanswer
    · exact absurd hfield (hdistinct.2.1.1 member hmem field hfirst)
  · exact absurd hfield (hnone member hmem)

end Records

/-! ## Parameters -/

def Placement.nameOf (unit : CompilationUnit) (placement : Placement) (die : Die) :
    Except Fault String := do
  return (← inheritedText? unit die AttrName.name).getD s!"arg{placement.args.size}"

def Reports (units : Listing CompilationUnit) (symbol : String) (unit : CompilationUnit)
    (parameter : Die) (info : ArgInfo) : Prop :=
  ∃ function before after placement placed args name,
    findFunction units symbol = .ok (unit, function) ∧
    (unit.childrenAt function.offset).items = before ++ parameter :: after ∧
    before.foldlM (Placement.add unit) {} = .ok placement ∧
    placement.add unit parameter = .ok placed ∧
    placement.nameOf unit parameter = .ok name ∧ placed.args.get? name = some info ∧
    argumentsOf units symbol = .ok args ∧ args.get? name = some info

section Parameters

variable {units : Listing CompilationUnit} {symbol : String} {unit : CompilationUnit}
  {parameter : Die} {info : ArgInfo}

theorem Placement.add_ok {placement placed : Placement}
    (htag : parameter.tag = Tag.formalParameter)
    (h : placement.add unit parameter = .ok placed) :
    ∃ name reference? description offset, placement.nameOf unit parameter = .ok name ∧
      inheritedAttr? unit parameter AttrName.type = .ok reference? ∧
      TypeDescription.ofReference unit reference? = .ok description ∧
      placed.args =
        placement.args.insert name ⟨offset, description.kind, description.typeName⟩ := by
  rw [Placement.add_eq, if_pos htag] at h
  cases hread : Parameter.read unit parameter with
  | error e => simp [hread, Except.map] at h
  | ok p =>
      rw [hread] at h
      cases h
      obtain ⟨htext, ⟨reference?, hreference, htype⟩, -⟩ := Parameter.read_ok hread
      have hname : placement.nameOf unit parameter = .ok (nameAt placement.args.size p.name?) := by
        rw [nameOf, htext]
        rfl
      exact ⟨_, reference?, p.type, _, hname, hreference, htype, rfl⟩

theorem Reports.exists_description (htag : parameter.tag = Tag.formalParameter)
    (h : Reports units symbol unit parameter info) :
    ∃ reference? description, inheritedAttr? unit parameter AttrName.type = .ok reference? ∧
      TypeDescription.ofReference unit reference? = .ok description ∧
      info.kind = description.kind ∧ info.typeName = description.typeName := by
  obtain ⟨function, before, after, placement, placed, args, name, -, -, -, hadd, hname, hinfo,
    -, -⟩ := h
  obtain ⟨name', reference?, description, offset, hname', hreference, hdescription, hargs⟩ :=
    Placement.add_ok htag hadd
  cases hname.symm.trans hname'
  rw [hargs, NameMap.get?_insert_self] at hinfo
  cases hinfo
  exact ⟨reference?, description, hreference, hdescription, rfl, rfl⟩

structure Described (units : Listing CompilationUnit) (symbol : String)
    (unit : CompilationUnit) (parameter : Die) (info : ArgInfo) (name : String)
    (record : Die) : Prop where
  reports : Reports units symbol unit parameter info
  tag : parameter.tag = Tag.formalParameter
  reaches : ∃ reference, inheritedAttr? unit parameter AttrName.type = .ok (some reference) ∧
    Reaches unit reference record
  mem : record ∈ unit.entries.items
  defines : Defines name unit record
  distinct : (unit.childrenAt record.offset).items.Pairwise fun a b =>
    ∀ field, IsMember field unit a → ¬ IsMember field unit b

theorem mem_of_findFunction {function : Die}
    (h : findFunction units symbol = .ok (unit, function)) : unit ∈ units.items := by
  obtain ⟨found?, hfound, h⟩ := exists_ok_of_bind h
  cases found? with
  | none => cases h
  | some found =>
      cases h
      exact (firstEntry_of_findDie? (decoded_ok.mp hfound)).1.mem

theorem Described.typeName_eq {name : String} {record : Die}
    (h : Described units symbol unit parameter info name record) : info.typeName = name := by
  obtain ⟨reference?, description, hreference?, hdescription, -, hname⟩ :=
    h.reports.exists_description h.tag
  obtain ⟨reference, hreference, hreaches⟩ := h.reaches
  cases hreference.symm.trans hreference?
  rw [hname]
  exact TypeDescription.typeName_of_reaches h.defines.1 h.defines.2.2 hreaches hdescription

/--
A parameter is reported with the name of the record that its type comes to.  Every member
under this name is asked of the first record of the name, and so of the record itself if no
other one of its name comes before it.
-/
theorem members_of_described {name : String} {record : Die}
    (hdecodes : ∀ unit ∈ units.items, unit.Decodes)
    (h : Described units symbol unit parameter info name record) :
    info.typeName = name ∧
    (∃ first firstRecord, FirstEntry units (Defines info.typeName) first firstRecord ∧
      ∀ field, AnswersFrom units info.typeName field first firstRecord) ∧
    (FirstEntry units (Defines info.typeName) unit record →
      ∀ field, ∀ member ∈ (unit.childrenAt record.offset).items, IsMember field unit member →
        memberOf units info.typeName field = memberInfo unit member) := by
  have hname := h.typeName_eq
  rw [hname]
  obtain ⟨function, -, -, -, -, -, -, hfunction, -⟩ := h.reports
  obtain ⟨first, firstRecord, hfirst⟩ :=
    exists_firstEntry (mem_of_findFunction hfunction) h.mem h.defines
  refine ⟨rfl, ⟨first, firstRecord, hfirst, answersFrom_of_first hdecodes hfirst⟩, ?_⟩
  intro hself field member hmem hfield
  exact (answersFrom_of_first hdecodes hself field).memberInfo_eq h.distinct hmem hfield

end Parameters

/-! ## Two records of one name -/

-- Other libraries have an instance as well; entries are compared by that of the core.
instance decidableEqBytes : DecidableEq ByteArray := ByteArray.instDecidableEq

deriving instance DecidableEq for AttrValue, Die, Placement

/--
Unit with `struct conn { int fd; }`, whose member is at this offset, and with a function of
this name that takes a pointer `c` to the record.
-/
def connUnit (offset : UInt8) (symbol : List UInt8) : List UInt8 :=
  [54 + symbol.length.toUInt8, 0, 0, 0, 4, 0, 0, 0, 0, 0, 8] ++
    [1] ++
    [2, 105, 110, 116, 0, 4] ++
    [3, 99, 111, 110, 110, 0] ++
    [4, 102, 100, 0, 12, 0, 0, 0, offset] ++ [0] ++
    [5, 18, 0, 0, 0] ++
    [6] ++ symbol ++ [0, 0, 16, 0, 0, 0, 0, 0, 0] ++
    [7, 99, 0, 34, 0, 0, 0] ++ [0] ++ [0]

def connAbbreviations : List UInt8 :=
  [1, 0x11, 1, 0, 0] ++
    [2, 0x24, 0, 0x03, 0x08, 0x0b, 0x0b, 0, 0] ++
    [3, 0x13, 1, 0x03, 0x08, 0, 0] ++
    [4, 0x0d, 0, 0x03, 0x08, 0x49, 0x13, 0x38, 0x0b, 0, 0] ++
    [5, 0x0f, 0, 0x49, 0x13, 0, 0] ++
    [6, 0x2e, 1, 0x03, 0x08, 0x11, 0x01, 0, 0] ++
    [7, 0x05, 0, 0x03, 0x08, 0x49, 0x13, 0, 0] ++ [0]

def connUnits : Listing CompilationUnit :=
  Sections.units {
    order := .little
    info := ⟨(connUnit 8 [115, 101, 114, 118, 101] ++
      connUnit 0 [113, 117, 101, 114, 121]).toArray⟩
    abbrev_ := ⟨connAbbreviations.toArray⟩ }

def connSymbol (i : Fin 2) : String := if i = 0 then "serve" else "query"

theorem length_connUnits : connUnits.items.length = 2 := by decide +kernel

def connUnitAt (i : Fin 2) : CompilationUnit :=
  connUnits.items.get (i.cast length_connUnits.symm)

theorem length_entries_connUnitAt : ∀ i, (connUnitAt i).entries.items.length = 7 := by
  decide +kernel

def connEntry (i : Fin 2) (k : Fin 7) : Die :=
  (connUnitAt i).entries.items.get (k.cast (length_entries_connUnitAt i).symm)

theorem eq_pair_of_length {α : Type} {l : List α} (h : l.length = 2) :
    l = [l.get (Fin.cast h.symm 0), l.get (Fin.cast h.symm 1)] :=
  match l, h with
  | [_, _], _ => rfl

theorem items_connUnits : connUnits.items = [] ++ connUnitAt 0 :: [connUnitAt 1] :=
  eq_pair_of_length length_connUnits

theorem decodes_connUnits : ∀ unit ∈ connUnits.items, unit.Decodes := by decide +kernel

theorem findFunction_connSymbol (i : Fin 2) :
    findFunction connUnits (connSymbol i) = .ok (connUnitAt i, connEntry i 5) := by
  have hown : ∀ i, (connUnitAt i).entries.findM? (isFunction (connSymbol i) (connUnitAt i)) =
      .ok (some (connEntry i 5)) := by decide +kernel
  have hother : ∀ unit ∈ [connUnitAt 0],
      unit.entries.findM? (isFunction (connSymbol 1) unit) = .ok none := by decide +kernel
  have hfind : ∀ i, findDie? connUnits (isFunction (connSymbol i)) =
      .ok (some (connUnitAt i, connEntry i 5)) := by
    rw [Fin.forall_fin_two]
    exact ⟨findDie?_of_split items_connUnits (List.forall_mem_nil _) (hown 0),
      findDie?_of_split (items_connUnits.trans (List.singleton_append).symm) hother (hown 1)⟩
  rw [findFunction, hfind]
  rfl

theorem children_connEntry : ∀ i,
    ((connUnitAt i).childrenAt (connEntry i 5).offset).items = [connEntry i 6] ∧
    ((connUnitAt i).childrenAt (connEntry i 2).offset).items = [connEntry i 3] ∧
    IsMember "fd" (connUnitAt i) (connEntry i 3) := by
  decide +kernel

theorem reports_connSymbol (i : Fin 2) :
    Reports connUnits (connSymbol i) (connUnitAt i) (connEntry i 6) ⟨0, .pointer, "conn"⟩ := by
  have harguments : ∀ i,
      ({} : Placement).add (connUnitAt i) (connEntry i 6) =
        .ok ⟨NameMap.empty.insert "c" ⟨0, .pointer, "conn"⟩, ⟨8⟩⟩ ∧
      ({} : Placement).nameOf (connUnitAt i) (connEntry i 6) = .ok "c" ∧
      argumentsOf connUnits (connSymbol i) =
        .ok (NameMap.empty.insert "c" ⟨0, .pointer, "conn"⟩) := by decide +kernel
  obtain ⟨hadd, hname, hargs⟩ := harguments i
  exact ⟨connEntry i 5, [], [], {}, _, _, "c", findFunction_connSymbol i,
    (children_connEntry i).1, rfl, hadd, hname, NameMap.get?_insert_self _ _ _, hargs,
    NameMap.get?_insert_self _ _ _⟩

theorem described_conn (i : Fin 2) :
    Described connUnits (connSymbol i) (connUnitAt i) (connEntry i 6)
      ⟨0, .pointer, "conn"⟩ "conn" (connEntry i 2) := by
  have hentries : ∀ i,
      (connEntry i 6).tag = Tag.formalParameter ∧
      inheritedAttr? (connUnitAt i) (connEntry i 6) AttrName.type = .ok (some (.unitRef 34)) ∧
      (connUnitAt i).entryAt 34 = .ok (connEntry i 4) ∧
      (connEntry i 4).tag.isPointer = true ∧
      (connEntry i 4).attr? AttrName.type = .ok (some (.unitRef 18)) ∧
      (connUnitAt i).entryAt 18 = .ok (connEntry i 2) ∧
      Defines "conn" (connUnitAt i) (connEntry i 2) := by decide +kernel
  obtain ⟨htag, hparameter, hpointer, hpointerTag, htarget, hrecord, hdefines⟩ := hentries i
  exact {
    reports := reports_connSymbol i
    tag := htag
    reaches := ⟨_, hparameter, .inr ⟨connEntry i 4, _, .here rfl hpointer, hpointerTag, htarget,
      .here rfl hrecord⟩⟩
    mem := List.get_mem _ _
    defines := hdefines
    distinct := by
      rw [(children_connEntry i).2.1]
      exact List.pairwise_singleton _ _ }

theorem mem_children_connEntry (i : Fin 2) :
    connEntry i 3 ∈ ((connUnitAt i).childrenAt (connEntry i 2).offset).items := by
  rw [(children_connEntry i).2.1]
  exact List.mem_singleton_self _

theorem firstRecord_conn :
    FirstEntry connUnits (Defines "conn") (connUnitAt 0) (connEntry 0 2) := by
  have hentries : (connUnitAt 0).entries.items =
      [connEntry 0 0, connEntry 0 1] ++ connEntry 0 2 :: (connUnitAt 0).entries.items.drop 3 ∧
      ∀ die ∈ [connEntry 0 0, connEntry 0 1], ¬ Defines "conn" (connUnitAt 0) die := by
    decide +kernel
  have hdefines := (described_conn 0).defines
  exact ⟨⟨[], [connUnitAt 1], items_connUnits, List.forall_mem_nil _,
      connEntry 0 2, (described_conn 0).mem, hdefines⟩,
    ⟨_, _, hentries.1, hentries.2, hdefines⟩⟩

theorem members_of_described_serve :
    (∀ unit ∈ connUnits.items, unit.Decodes) ∧
    Described connUnits "serve" (connUnitAt 0) (connEntry 0 6) ⟨0, .pointer, "conn"⟩ "conn"
      (connEntry 0 2) ∧
    memberOf connUnits "conn" "fd" = memberInfo (connUnitAt 0) (connEntry 0 3) := by
  have hmembers := (members_of_described decodes_connUnits (described_conn 0)).2.2
  exact ⟨decodes_connUnits, described_conn 0, hmembers firstRecord_conn "fd" (connEntry 0 3)
    (mem_children_connEntry 0) (children_connEntry 0).2.2⟩

theorem members_of_later_record :
    (∀ unit ∈ connUnits.items, unit.Decodes) ∧
    Described connUnits "query" (connUnitAt 1) (connEntry 1 6) ⟨0, .pointer, "conn"⟩ "conn"
      (connEntry 1 2) ∧
    connEntry 1 3 ∈ ((connUnitAt 1).childrenAt (connEntry 1 2).offset).items ∧
    IsMember "fd" (connUnitAt 1) (connEntry 1 3) ∧
    memberInfo (connUnitAt 1) (connEntry 1 3) = .ok ⟨0, .base, "int"⟩ ∧
    memberOf connUnits "conn" "fd" = .ok ⟨8, .base, "int"⟩ :=
  ⟨decodes_connUnits, described_conn 1, mem_children_connEntry 1, (children_connEntry 1).2.2,
    by decide +kernel, by decide +kernel⟩

end Dwarf

end ProbeLowering
