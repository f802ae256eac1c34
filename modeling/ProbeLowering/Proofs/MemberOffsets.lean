import ProbeLowering.Proofs.Operations
import ProbeLowering.Proofs.RecordLookup

/-!
# Offsets of members

A member says where it is by a number, or by an expression whose only operation adds one; a
member that gives no location starts its record.  Whenever a location says this, it is the
offset that is reported.  Other locations are not refused: of a longer expression the first
operation counts alone, and what is not understood counts like no location
(`member_offsets`).
-/

namespace ProbeLowering.Dwarf

open DebugInfo (MemberInfo)

/-- The location says that the member has this offset. -/
inductive SaysOffset (e : Encoding) (order : ByteOrder) : Option AttrValue → Int → Prop where
  | omitted : SaysOffset e order none 0
  | constant {value : AttrValue} {n : Nat} (stated : value.unsigned? = some n) :
      SaysOffset e order (some value) (toSigned64 n)
  | negative {n : Int} (sign : n < 0) : SaysOffset e order (some (.signed n)) n
  | added {value : AttrValue} {bytes : ByteArray} {n : Nat}
      (expression : value.expression? = some bytes)
      (operations : Consists e order bytes [.plusConstant n]) :
      SaysOffset e order (some value) (toSigned64 n)

def AddsFirst (e : Encoding) (order : ByteOrder) (location? : Option AttrValue) (n : Nat) : Prop :=
  ∃ value bytes, location? = some value ∧ value.expression? = some bytes ∧
    Begins e order bytes (.plusConstant n)

section Locations

variable {e : Encoding} {order : ByteOrder} {member : Die} {value : AttrValue} {bytes : ByteArray}
  {first? : ByteArray → Except Fault (Option Operation)}

theorem expression?_of_unsigned? {n : Nat} (h : value.unsigned? = some n) :
    value.expression? = none := by
  cases value <;> first | rfl | cases h

theorem neg_of_unsigned? {n : Int} (h : (AttrValue.signed n).unsigned? = none) : n < 0 := by
  by_contra hsign
  simp [AttrValue.unsigned?, Int.not_lt.mp hsign] at h

theorem memberOffset?_omitted (h : member.attr? AttrName.dataMemberLocation = .ok none) :
    memberOffset? first? member = .ok none := by
  rw [memberOffset?, h]
  rfl

theorem memberOffset?_constant {n : Nat}
    (h : member.attr? AttrName.dataMemberLocation = .ok (some value))
    (hstated : value.unsigned? = some n) :
    memberOffset? first? member = .ok (some (toSigned64 n)) := by
  simp [memberOffset?, h, hstated]

theorem memberOffset?_negative {n : Int}
    (h : member.attr? AttrName.dataMemberLocation = .ok (some (.signed n))) (hsign : n < 0) :
    memberOffset? first? member = .ok (some n) := by
  simp [memberOffset?, h, AttrValue.unsigned?, AttrValue.expression?, Int.not_le.mpr hsign]

theorem memberOffset?_expression
    (h : member.attr? AttrName.dataMemberLocation = .ok (some value))
    (hexpression : value.expression? = some bytes) {op? : Except Fault (Option Operation)}
    (hfirst : first? bytes = op?) :
    memberOffset? first? member = op?.map fun op? =>
      match op? with
      | some (.plusConstant n) => some (toSigned64 n)
      | _ => none := by
  have hunsigned : value.unsigned? = none := by
    cases hstated : value.unsigned? with
    | none => rfl
    | some n => cases (expression?_of_unsigned? hstated).symm.trans hexpression
  simp only [memberOffset?, h, ok_bind, hunsigned, hexpression, hfirst]
  rcases op? with fault | (_ | ⟨⟨⟩⟩) <;> rfl

theorem memberOffset?_unread (h : member.attr? AttrName.dataMemberLocation = .ok (some value))
    (hunsigned : value.unsigned? = none) (hexpression : value.expression? = none)
    (hsigned : ∀ n, value ≠ .signed n) : memberOffset? first? member = .ok none := by
  cases value <;>
    simp_all [memberOffset?]

theorem memberOffset?_spec {offset? : Option Int} {location? : Option AttrValue}
    (hlocation : member.attr? AttrName.dataMemberLocation = .ok location?)
    (h : memberOffset? (Operation.first? e order) member = .ok offset?) :
    (∀ n, SaysOffset e order location? n → offset?.getD 0 = n) ∧
      (∀ n, AddsFirst e order location? n → offset?.getD 0 = toSigned64 n) ∧
      ((∀ n, ¬ SaysOffset e order location? n) → (∀ n, ¬ AddsFirst e order location? n) →
        offset?.getD 0 = 0) := by
  have hadds : ∀ n, AddsFirst e order location? n → offset?.getD 0 = toSigned64 n := by
    rintro n ⟨value, bytes, rfl, hexpression, hbegins⟩
    rw [memberOffset?_expression hlocation hexpression (first?_eq_some_iff.mpr hbegins)] at h
    cases h
    rfl
  refine ⟨fun n hstates => ?_, hadds, fun hstates hnone => ?_⟩
  · cases hstates with
    | omitted =>
        cases (memberOffset?_omitted hlocation).symm.trans h
        rfl
    | constant hstated =>
        cases (memberOffset?_constant hlocation hstated).symm.trans h
        rfl
    | negative hsign =>
        cases (memberOffset?_negative hlocation hsign).symm.trans h
        rfl
    | added hexpression hoperations =>
        exact hadds _ ⟨_, _, rfl, hexpression, hoperations.begins⟩
  · cases location? with
    | none => exact absurd .omitted (hstates 0)
    | some value =>
        have hunsigned : value.unsigned? = none :=
          Option.eq_none_iff_forall_ne_some.mpr fun n hstated => hstates _ (.constant hstated)
        have hsigned : ∀ n, value ≠ .signed n := by
          rintro n rfl
          exact hstates n (.negative (neg_of_unsigned? hunsigned))
        cases hexpression : value.expression? with
        | none =>
            cases (memberOffset?_unread hlocation hunsigned hexpression hsigned).symm.trans h
            rfl
        | some bytes =>
            rw [memberOffset?_expression hlocation hexpression rfl] at h
            cases hfirst : Operation.first? e order bytes with
            | error fault => simp [hfirst, Except.map] at h
            | ok op? =>
                rw [hfirst] at h
                cases h
                rcases op? with _ | (_ | n | _)
                · rfl
                · rfl
                · have hbegins := first?_eq_some_iff.mp hfirst
                  exact (hnone n ⟨value, bytes, rfl, hexpression, hbegins⟩).elim
                · rfl

theorem isOk_memberOffset? {location? : Option AttrValue}
    (hlocation : member.attr? AttrName.dataMemberLocation = .ok location?)
    (hfirst : ∀ value bytes, location? = some value → value.expression? = some bytes →
      (first? bytes).isOk) : (memberOffset? first? member).isOk := by
  cases location? with
  | none =>
      rw [memberOffset?_omitted hlocation]
      rfl
  | some value =>
      cases hexpression : value.expression? with
      | some bytes =>
          obtain ⟨op?, hop⟩ := exists_of_isOk (hfirst value bytes rfl hexpression)
          rw [memberOffset?_expression hlocation hexpression hop]
          rfl
      | none =>
          cases hstated : value.unsigned? with
          | some n =>
              rw [memberOffset?_constant hlocation hstated]
              rfl
          | none =>
              by_cases hsigned : ∃ n, value = .signed n
              · obtain ⟨n, rfl⟩ := hsigned
                rw [memberOffset?_negative hlocation (neg_of_unsigned? hstated)]
                rfl
              · rw [memberOffset?_unread hlocation hstated hexpression
                  fun n heq => hsigned ⟨n, heq⟩]
                rfl

end Locations

/--
The field is that of this member, which is the first one of its name in the first record of
its name.  Expressions in its unit have this encoding.
-/
def FieldAt (s : Sections) (name field : String) (e : Encoding) (unit : CompilationUnit)
    (member : Die) : Prop :=
  ∃ header record, s.buildUnit header = .ok unit ∧ header.encoding = e ∧
    FirstEntry s.units (Defines name) unit record ∧
    (unit.childrenAt record.offset).IsFirst (IsMember field unit) member

section Members

variable {units : Listing CompilationUnit} {unit : CompilationUnit} {name field : String}
  {record member : Die} {info : MemberInfo} {s : Sections}

theorem exists_encoding (hrecord : findRecord s.units name = .ok (unit, record))
    (hmember : (unit.childrenAt record.offset).findM? (isMember field unit) = .ok (some member)) :
    ∃ e, FieldAt s name field e unit member ∧
      unit.firstOperation? = Operation.first? e s.order := by
  have hfirst := firstEntry_of_findRecord hrecord
  have hmember := Listing.isFirst_of_findM? hmember
  simp only [isMember_iff] at hmember
  obtain ⟨header, hheader⟩ := exists_header hfirst.1.mem
  exact ⟨header.encoding, ⟨header, record, hheader, rfl, hfirst, hmember⟩,
    firstOperation?_of_buildUnit hheader⟩

theorem exists_fieldAt (h : memberOf s.units name field = .ok info) :
    ∃ e unit member, FieldAt s name field e unit member ∧
      unit.firstOperation? = Operation.first? e s.order ∧ memberInfo unit member = .ok info := by
  obtain ⟨⟨unit, record⟩, hrecord, h⟩ := exists_ok_of_bind h
  obtain ⟨member?, hmember, h⟩ := exists_ok_of_bind h
  cases member? with
  | none => cases h
  | some member =>
      obtain ⟨e, hfield, hfirst⟩ := exists_encoding hrecord (decoded_ok.mp hmember)
      exact ⟨e, unit, member, hfield, hfirst, h⟩

theorem memberInfo_ok (h : memberInfo unit member = .ok info) :
    ∃ offset?, memberOffset? unit.firstOperation? member = .ok offset? ∧
      info.offset = offset?.getD 0 := by
  obtain ⟨reference?, -, h⟩ := exists_ok_of_bind h
  obtain ⟨description, -, h⟩ := exists_ok_of_bind h
  obtain ⟨offset?, hoffset, h⟩ := exists_ok_of_bind h
  cases h
  exact ⟨offset?, decoded_ok.mp hoffset, rfl⟩

theorem isOk_memberInfo {reference? : Option AttrValue} {description : TypeDescription}
    (htype : member.attr? AttrName.type = .ok reference?)
    (hdescription : TypeDescription.ofReference unit reference? = .ok description)
    (hoffset : (memberOffset? unit.firstOperation? member).isOk) :
    (memberInfo unit member).isOk := by
  obtain ⟨offset?, hoffset⟩ := exists_of_isOk hoffset
  rw [memberInfo, decoded_ok.mpr htype, decoded_ok.mpr hoffset]
  simp only [ok_bind, hdescription]
  rfl

/--
The offset of a member is what its location says.  Of an expression that adds a number first
it is this number, whatever the expression does then, and without any of this it is zero.  A
location is refused only if it is an expression whose first operation cannot be decoded.
-/
theorem member_offsets (s : Sections) (name field : String) :
    (∀ info, memberOf s.units name field = .ok info → ∃ e unit member location?,
      FieldAt s name field e unit member ∧
      member.attr? AttrName.dataMemberLocation = .ok location? ∧
      (∀ n, SaysOffset e s.order location? n → info.offset = n) ∧
      (∀ n, AddsFirst e s.order location? n → info.offset = toSigned64 n) ∧
      ((∀ n, ¬ SaysOffset e s.order location? n) → (∀ n, ¬ AddsFirst e s.order location? n) →
        info.offset = 0)) ∧
    ∀ e unit member location? reference? description, FieldAt s name field e unit member →
      member.attr? AttrName.type = .ok reference? →
      TypeDescription.ofReference unit reference? = .ok description →
      member.attr? AttrName.dataMemberLocation = .ok location? →
      (∀ value bytes, location? = some value → value.expression? = some bytes →
        (Operation.first? e s.order bytes).isOk) →
      (memberInfo unit member).isOk := by
  constructor
  · intro info h
    obtain ⟨e, unit, member, hfield, hfirst, hinfo⟩ := exists_fieldAt h
    obtain ⟨offset?, hoffset, heq⟩ := memberInfo_ok hinfo
    have ⟨location?, hlocation, _⟩ := exists_ok_of_bind hoffset
    rw [hfirst] at hoffset
    rw [heq]
    exact ⟨e, unit, member, location?, hfield, hlocation, memberOffset?_spec hlocation hoffset⟩
  · intro e unit member location? reference? description hfield htype hdescription hlocation hfirst
    obtain ⟨header, record, hheader, rfl, -⟩ := hfield
    refine isOk_memberInfo htype hdescription (isOk_memberOffset? hlocation ?_)
    rw [firstOperation?_of_buildUnit hheader]
    exact hfirst

end Members

/-! ## Offsets that are not said -/

/--
Unit with a record `hdr`, whose members are integers: `id` is at 8, `at` where the address at
8 leads, `vb` where the address at the start leads, and `fl` starts with bit 40.
-/
def hdrSections : Sections where
  order := .little
  info := ⟨([63, 0, 0, 0, 4, 0, 0, 0, 0, 0, 8] ++
    [1] ++
    [2, 105, 110, 116, 0, 4] ++
    [3, 104, 100, 114, 0] ++
    [4, 105, 100, 0, 12, 0, 0, 0, 2, 0x23, 8] ++
    [4, 97, 116, 0, 12, 0, 0, 0, 3, 0x23, 8, 0x06] ++
    [4, 118, 98, 0, 12, 0, 0, 0, 1, 0x06] ++
    [5, 102, 108, 0, 12, 0, 0, 0, 40] ++ [0] ++ [0] : List UInt8).toArray⟩
  abbrev_ := ⟨([1, 0x11, 1, 0, 0] ++
    [2, 0x24, 0, 0x03, 0x08, 0x0b, 0x0b, 0, 0] ++
    [3, 0x13, 1, 0x03, 0x08, 0, 0] ++
    [4, 0x0d, 0, 0x03, 0x08, 0x49, 0x13, 0x38, 0x18, 0, 0] ++
    [5, 0x0d, 0, 0x03, 0x08, 0x49, 0x13, 0x6b, 0x0b, 0, 0] ++ [0] : List UInt8).toArray⟩

theorem length_hdrUnits : hdrSections.units.items.length = 1 := by decide +kernel

def hdrUnit : CompilationUnit := hdrSections.units.only length_hdrUnits

theorem length_entries_hdrUnit : hdrUnit.entries.items.length = 7 := by decide +kernel

def hdrEntry (k : Fin 7) : Die :=
  hdrUnit.entries.items.get (k.cast length_entries_hdrUnit.symm)

theorem findRecord_hdr : findRecord hdrSections.units "hdr" = .ok (hdrUnit, hdrEntry 2) :=
  findRecord_of_singleton (Listing.items_eq_only length_hdrUnits) (by decide +kernel)

theorem exists_fieldAt_hdr : ∀ field ∈ [("id", 3), ("at", 4), ("vb", 5), ("fl", 6)],
    ∃ e, FieldAt hdrSections "hdr" field.1 e hdrUnit (hdrEntry field.2) := by
  have hmembers : ∀ field ∈ [("id", 3), ("at", 4), ("vb", 5), ("fl", 6)],
      (hdrUnit.childrenAt (hdrEntry 2).offset).findM? (isMember field.1 hdrUnit) =
        .ok (some (hdrEntry field.2)) := by decide +kernel
  intro field hfield
  obtain ⟨e, hat, -⟩ := exists_encoding findRecord_hdr (hmembers field hfield)
  exact ⟨e, hat⟩

theorem member_offsets_id :
    memberOf hdrSections.units "hdr" "id" = .ok ⟨8, .base, "int"⟩ ∧
    (∃ e unit member location?, FieldAt hdrSections "hdr" "id" e unit member ∧
      member.attr? AttrName.dataMemberLocation = .ok location? ∧
      ∀ n, SaysOffset e .little location? n → (8 : Int) = n) ∧
    ∃ e, FieldAt hdrSections "hdr" "vb" e hdrUnit (hdrEntry 5) ∧
      (memberInfo hdrUnit (hdrEntry 5)).isOk := by
  have hid : memberOf hdrSections.units "hdr" "id" = .ok ⟨8, .base, "int"⟩ := by decide +kernel
  have hvb : (hdrEntry 5).attr? AttrName.type = .ok (some (.unitRef 12)) ∧
      TypeDescription.ofReference hdrUnit (some (.unitRef 12)) = .ok ⟨.base, "int", 4⟩ ∧
      (hdrEntry 5).attr? AttrName.dataMemberLocation = .ok (some (.expression ⟨#[0x06]⟩)) := by
    decide +kernel
  obtain ⟨htype, hdescription, hlocation⟩ := hvb
  obtain ⟨e, unit, member, location?, hfield, hattr, hstates, -⟩ :=
    (member_offsets hdrSections "hdr" "id").1 _ hid
  obtain ⟨e', hfield'⟩ := exists_fieldAt_hdr ("vb", 5) (by decide)
  refine ⟨hid, ⟨e, unit, member, location?, hfield, hattr, hstates⟩, e', hfield', ?_⟩
  refine (member_offsets hdrSections "hdr" "vb").2 e' hdrUnit (hdrEntry 5) _ _ _ hfield' htype
    hdescription hlocation ?_
  intro value bytes hvalue hexpression
  cases hvalue
  cases hexpression
  rfl

/--
A location that leads through an address says no offset, alone or after an offset, and is not
refused.  A member that starts with bit 40 is reported at the start of its record.
-/
theorem offsets_not_said :
    (∃ e, FieldAt hdrSections "hdr" "vb" e hdrUnit (hdrEntry 5) ∧
      (hdrEntry 5).attr? AttrName.dataMemberLocation = .ok (some (.expression ⟨#[0x06]⟩)) ∧
      (∀ n, ¬ SaysOffset e .little (some (.expression ⟨#[0x06]⟩)) n) ∧
      memberOf hdrSections.units "hdr" "vb" = .ok ⟨0, .base, "int"⟩) ∧
    (∃ e, FieldAt hdrSections "hdr" "at" e hdrUnit (hdrEntry 4) ∧
      (hdrEntry 4).attr? AttrName.dataMemberLocation =
        .ok (some (.expression ⟨#[0x23, 8, 0x06]⟩)) ∧
      (∀ n, ¬ SaysOffset e .little (some (.expression ⟨#[0x23, 8, 0x06]⟩)) n) ∧
      memberOf hdrSections.units "hdr" "at" = .ok ⟨8, .base, "int"⟩) ∧
    ∃ e, FieldAt hdrSections "hdr" "fl" e hdrUnit (hdrEntry 6) ∧
      (hdrEntry 6).attr? AttrName.dataMemberLocation = .ok none ∧
      (hdrEntry 6).attr? AttrName.dataBitOffset = .ok (some (.data 1 40)) ∧
      memberOf hdrSections.units "hdr" "fl" = .ok ⟨0, .base, "int"⟩ := by
  have hattrs :
      (hdrEntry 5).attr? AttrName.dataMemberLocation = .ok (some (.expression ⟨#[0x06]⟩)) ∧
      (hdrEntry 4).attr? AttrName.dataMemberLocation =
        .ok (some (.expression ⟨#[0x23, 8, 0x06]⟩)) ∧
      (hdrEntry 6).attr? AttrName.dataMemberLocation = .ok none ∧
      (hdrEntry 6).attr? AttrName.dataBitOffset = .ok (some (.data 1 40)) := by decide +kernel
  have hmembers :
      memberOf hdrSections.units "hdr" "vb" = .ok ⟨0, .base, "int"⟩ ∧
      memberOf hdrSections.units "hdr" "at" = .ok ⟨8, .base, "int"⟩ ∧
      memberOf hdrSections.units "hdr" "fl" = .ok ⟨0, .base, "int"⟩ := by decide +kernel
  have hstates : ∀ {e bytes ops}, Consists e .little bytes ops → (∀ n, ops ≠ [.plusConstant n]) →
      ∀ n, ¬ SaysOffset e .little (some (.expression bytes)) n := by
    intro e bytes ops hops hne n hstates
    cases hstates with
    | constant hstated => cases hstated
    | added hexpression hoperations =>
        cases hexpression
        exact hne _ (hops.unique hoperations)
  obtain ⟨vb, hvb⟩ := exists_fieldAt_hdr ("vb", 5) (by decide)
  obtain ⟨at_, hat⟩ := exists_fieldAt_hdr ("at", 4) (by decide)
  obtain ⟨fl, hfl⟩ := exists_fieldAt_hdr ("fl", 6) (by decide)
  have hvbOps : Consists vb .little ⟨#[0x06]⟩ [.other 0x06] :=
    .next rfl rfl (.done rfl)
  have hatOps : Consists at_ .little ⟨#[0x23, 8, 0x06]⟩ [.plusConstant 8, .other 0x06] :=
    .next rfl rfl (.next rfl rfl (.done rfl))
  exact ⟨⟨vb, hvb, hattrs.1, hstates hvbOps (by simp), hmembers.1⟩,
    ⟨at_, hat, hattrs.2.1, hstates hatOps (by simp), hmembers.2.1⟩,
    fl, hfl, hattrs.2.2.1, hattrs.2.2.2, hmembers.2.2⟩

end ProbeLowering.Dwarf
