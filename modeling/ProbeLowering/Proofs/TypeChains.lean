import Mathlib.Data.Set.Card
import ProbeLowering.Dwarf.TypeDescription

/-!
# Chains of types

A reference leads from entry to entry, along typedefs, qualifiers and enumerations and
across pointers, to an entry that describes a type.  The entries between two pointers are a
segment of this chain, which has no end if it runs into a cycle.  What the chain says about
the type does not depend on its length (`Describes`).  A description visits at most 32
entries of the first segment, and one less of each segment that follows.  It is found
exactly if no segment is longer than this, and then it is what the chain says
(`type_descriptions`).
-/

namespace ProbeLowering.Dwarf

open DebugInfo (LookupError VarKind)

section Outcomes

variable {ε α β : Type}

@[simp] theorem ok_bind (value : α) (next : α → Except ε β) :
    (Except.ok value >>= next) = next value := rfl

@[simp] theorem error_bind (e : ε) (next : α → Except ε β) :
    (Except.error e >>= next) = .error e := rfl

@[simp] theorem pure_eq_ok (value : α) : (pure value : Except ε α) = .ok value := rfl

theorem exists_ok_of_bind {read : Except ε α} {next : α → Except ε β} {result : β}
    (h : read >>= next = .ok result) :
    ∃ value, read = .ok value ∧ next value = .ok result := by
  cases read with
  | error e => cases h
  | ok value => exact ⟨value, rfl, h⟩

end Outcomes

theorem decoded_ok {α : Type} {read : Except Fault α} {value : α} :
    decoded read = .ok value ↔ read = .ok value := by
  cases read with
  | error fault => exact ⟨nofun, nofun⟩
  | ok found =>
      constructor
      · rintro ⟨⟩
        rfl
      · rintro ⟨⟩
        rfl

theorem localOffset_ok {reference : AttrValue} {offset : Nat} :
    localOffset reference = .ok offset ↔ reference.unitRef? = some offset := by
  unfold localOffset
  cases reference.unitRef? <;> simp

def Tag.isType (tag : Tag) : Bool :=
  tag.isAlias || tag == baseType || tag == enumerationType || tag.isPointer ||
    tag.isAggregate || tag == unspecifiedType

/-- What the entry says about a type, by its tag. -/
inductive Says (unit : CompilationUnit) (die : Die) : TypeLink → Prop where
  | wrapper {target : Option AttrValue} (tag : die.tag.isAlias)
      (type : die.attr? AttrName.type = .ok target) : Says unit die (.alias target)
  | underlying {target : AttrValue} (tag : die.tag = Tag.enumerationType)
      (type : die.attr? AttrName.type = .ok (some target)) : Says unit die (.alias (some target))
  | pointer {size : Option AttrValue} {target : Option AttrValue} (tag : die.tag.isPointer)
      (byteSize : die.attr? AttrName.byteSize = .ok size)
      (type : die.attr? AttrName.type = .ok target) :
      Says unit die (.pointer ((size.bind AttrValue.unsigned?).getD 8) target)
  | base {name : Option String} {size : Option AttrValue} (tag : die.tag = Tag.baseType)
      (named : ownText? unit die AttrName.name = .ok name)
      (byteSize : die.attr? AttrName.byteSize = .ok size) :
      Says unit die (.described
        ⟨.base, name.getD "<unnamed>", (size.bind AttrValue.unsigned?).getD 0⟩)
  | enumeration {size : Option AttrValue} (tag : die.tag = Tag.enumerationType)
      (byteSize : die.attr? AttrName.byteSize = .ok size)
      (type : die.attr? AttrName.type = .ok none) :
      Says unit die (.described ⟨.base, "int", (size.bind AttrValue.unsigned?).getD 4⟩)
  | aggregate {name : Option String} {size : Option AttrValue} (tag : die.tag.isAggregate)
      (named : ownText? unit die AttrName.name = .ok name)
      (byteSize : die.attr? AttrName.byteSize = .ok size) :
      Says unit die (.described
        ⟨.struct, name.getD "<anonymous>", (size.bind AttrValue.unsigned?).getD 0⟩)
  | unspecified (tag : die.tag = Tag.unspecifiedType) : Says unit die (.described .void)

/-- The entry describes a type, and what a description reads of it can be decoded. -/
structure Readable (unit : CompilationUnit) (die : Die) : Prop where
  tag : die.tag.isType
  named : (ownText? unit die AttrName.name).isOk
  attrs : die.next.isOk

section Entries

variable {unit : CompilationUnit} {die : Die} {link : TypeLink}

theorem Tag.of_isAggregate {tag : Tag} (h : tag.isAggregate = true) :
    tag.isAlias = false ∧ tag ≠ baseType ∧ tag ≠ enumerationType ∧ tag.isPointer = false ∧
      tag ≠ unspecifiedType := by
  have hcases : (tag = structureType ∨ tag = classType ∨ tag = unionType) ∨ tag = arrayType := by
    simpa [isAggregate, isRecord] using h
  rcases hcases with (rfl | rfl | rfl) | rfl <;> decide

theorem Tag.of_isAlias {tag : Tag} (h : tag.isAlias = true) :
    tag ≠ baseType ∧ tag ≠ enumerationType ∧ tag.isPointer = false ∧
      tag.isAggregate = false ∧ tag ≠ unspecifiedType := by
  have hcases : tag = typedef ∨ tag = constType ∨ tag = volatileType ∨ tag = restrictType ∨
      tag = atomicType := by
    simpa [isAlias] using h
  rcases hcases with rfl | rfl | rfl | rfl | rfl <;> decide

theorem Tag.of_isPointer {tag : Tag} (h : tag.isPointer = true) :
    tag.isAlias = false ∧ tag ≠ baseType ∧ tag ≠ enumerationType ∧ tag.isAggregate = false ∧
      tag ≠ unspecifiedType := by
  have hcases : tag = pointerType ∨ tag = referenceType ∨ tag = rvalueReferenceType := by
    simpa [isPointer] using h
  rcases hcases with rfl | rfl | rfl <;> decide

theorem says_of_ofDie (h : TypeLink.ofDie unit die = .ok link) : Says unit die link := by
  obtain ⟨name, hname, h⟩ := exists_ok_of_bind h
  obtain ⟨size, hsize, h⟩ := exists_ok_of_bind h
  rw [decoded_ok] at hname hsize
  split at h
  next htag =>
    obtain ⟨target, htarget, h⟩ := exists_ok_of_bind h
    cases h
    exact .wrapper htag (decoded_ok.mp htarget)
  split at h
  next htag =>
    cases h
    exact .base htag hname hsize
  split at h
  next htag =>
    obtain ⟨target, htarget, h⟩ := exists_ok_of_bind h
    cases target with
    | none =>
        cases h
        exact .enumeration htag hsize (decoded_ok.mp htarget)
    | some target =>
        cases h
        exact .underlying htag (decoded_ok.mp htarget)
  split at h
  next htag =>
    obtain ⟨target, htarget, h⟩ := exists_ok_of_bind h
    cases h
    exact .pointer htag hsize (decoded_ok.mp htarget)
  split at h
  next htag =>
    cases h
    exact .aggregate htag hname hsize
  split at h
  next htag =>
    cases h
    exact .unspecified htag
  next => cases h

/-- The tags exclude each other, so that an entry says one thing at most. -/
theorem Says.unique {other : TypeLink} (h : Says unit die link) (h' : Says unit die other) :
    link = other := by
  have hdistinct : Tag.baseType ≠ Tag.enumerationType ∧ Tag.baseType ≠ Tag.unspecifiedType ∧
      Tag.enumerationType ≠ Tag.unspecifiedType := by decide
  cases h with
  | wrapper tag =>
      have hother := Tag.of_isAlias tag
      cases h' <;> simp_all
  | pointer tag =>
      have hother := Tag.of_isPointer tag
      cases h' <;> simp_all
  | aggregate tag =>
      have hother := Tag.of_isAggregate tag
      cases h' <;> simp_all
  | base tag | underlying tag | enumeration tag | unspecified tag =>
      have halias := @Tag.of_isAlias die.tag
      have hpointer := @Tag.of_isPointer die.tag
      have haggregate := @Tag.of_isAggregate die.tag
      cases h' <;> simp_all

theorem Says.kind_ne_pointer {description : TypeDescription}
    (h : Says unit die (.described description)) : description.kind ≠ .pointer := by
  cases h <;> simp [TypeDescription.void]

theorem Die.exists_attr (h : die.next.isOk) (name : AttrName) :
    ∃ value, die.attr? name = .ok value := by
  unfold attr?
  split
  next value _ => exact ⟨some value, rfl⟩
  next =>
    split
    next => exact ⟨none, rfl⟩
    next fault hnext => simp [hnext, Except.isOk, Except.toBool] at h

theorem Readable.exists_ofDie (h : Readable unit die) :
    ∃ link, TypeLink.ofDie unit die = .ok link := by
  obtain ⟨name, hname⟩ : ∃ name, ownText? unit die AttrName.name = .ok name := by
    have hnamed := h.named
    cases hname : ownText? unit die AttrName.name with
    | error fault => simp [hname, Except.isOk, Except.toBool] at hnamed
    | ok name => exact ⟨name, rfl⟩
  obtain ⟨size, hsize⟩ := Die.exists_attr h.attrs AttrName.byteSize
  obtain ⟨target, htarget⟩ := Die.exists_attr h.attrs AttrName.type
  have htag := h.tag
  simp only [Tag.isType, Bool.or_eq_true, beq_iff_eq] at htag
  rw [TypeLink.ofDie, decoded_ok.mpr hname, decoded_ok.mpr hsize, decoded_ok.mpr htarget]
  simp only [ok_bind]
  split_ifs
  · exact ⟨_, rfl⟩
  · exact ⟨_, rfl⟩
  · cases target <;> exact ⟨_, rfl⟩
  · exact ⟨_, rfl⟩
  · exact ⟨_, rfl⟩
  · exact ⟨_, rfl⟩
  · simp_all

end Entries

/-! ## Segments -/

section Segments

variable {unit : CompilationUnit} {reference : AttrValue} {link : TypeLink}

def LinkAt (unit : CompilationUnit) (reference : AttrValue) (link : TypeLink) : Prop :=
  ∃ offset die, reference.unitRef? = some offset ∧ unit.entryAt offset = .ok die ∧
    Says unit die link

theorem LinkAt.unique {other : TypeLink} (h : LinkAt unit reference link)
    (h' : LinkAt unit reference other) : link = other := by
  obtain ⟨offset, die, href, hentry, hsaid⟩ := h
  obtain ⟨offset', die', href', hentry', hsaid'⟩ := h'
  cases href.symm.trans href'
  cases hentry.symm.trans hentry'
  exact hsaid.unique hsaid'

/-- After `place` entries, `depth` pointers among them, the chain goes on with this reference. -/
inductive Visits (unit : CompilationUnit) :
    Option AttrValue → (place depth : Nat) → Option AttrValue → Prop where
  | here {reference : Option AttrValue} : Visits unit reference 0 0 reference
  | through {reference : AttrValue} {target last : Option AttrValue} {place depth : Nat}
      (hlink : LinkAt unit reference (.alias target))
      (hnext : Visits unit target place depth last) :
      Visits unit (some reference) (place + 1) depth last
  | cross {reference : AttrValue} {size : Nat} {target last : Option AttrValue}
      {place depth : Nat} (hlink : LinkAt unit reference (.pointer size target))
      (hnext : Visits unit target place depth last) :
      Visits unit (some reference) (place + 1) (depth + 1) last

theorem Visits.append {reference next last : Option AttrValue} {place depth place' depth' : Nat}
    (h : Visits unit reference place depth next) (h' : Visits unit next place' depth' last) :
    Visits unit reference (place + place') (depth + depth') last := by
  induction h with
  | here => simpa using h'
  | through hlink _ ih => simpa [Nat.add_right_comm] using (ih h').through hlink
  | cross hlink _ ih => simpa [Nat.add_right_comm] using (ih h').cross hlink

/-- Places of the entries that are visited after the given number of pointers. -/
def segment (unit : CompilationUnit) (reference : Option AttrValue) (depth : Nat) : Set Nat :=
  {place | ∃ entry, Visits unit reference place depth (some entry)}

theorem segment_none (depth : Nat) : segment unit none depth = ∅ := by
  ext place
  constructor
  · rintro ⟨entry, h⟩
    cases h
  · exact False.elim

def TypeLink.rest (unit : CompilationUnit) : TypeLink → Nat → Set Nat
  | .described _, _ | .pointer _ _, 0 => ∅
  | .alias target, depth | .pointer _ target, depth + 1 => segment unit target depth

theorem LinkAt.mem_segment_zero (hlink : LinkAt unit reference link) {place : Nat} :
    place ∈ segment unit (some reference) 0 ↔
      place = 0 ∨ ∃ later ∈ link.rest unit 0, later + 1 = place := by
  constructor
  · rintro ⟨entry, h⟩
    cases h with
    | here => exact .inl rfl
    | through hlink' hnext =>
        cases hlink.unique hlink'
        exact .inr ⟨_, ⟨entry, hnext⟩, rfl⟩
  · rintro (rfl | ⟨later, hlater, rfl⟩)
    · exact ⟨reference, .here⟩
    · rcases link with d | target | ⟨size, target⟩
      · cases hlater
      · exact hlater.imp fun _ hnext => hnext.through hlink
      · cases hlater

theorem LinkAt.mem_segment_succ (hlink : LinkAt unit reference link) {place depth : Nat} :
    place ∈ segment unit (some reference) (depth + 1) ↔
      ∃ later ∈ link.rest unit (depth + 1), later + 1 = place := by
  constructor
  · rintro ⟨entry, h⟩
    cases h with
    | through hlink' hnext | cross hlink' hnext =>
        cases hlink.unique hlink'
        exact ⟨_, ⟨entry, hnext⟩, rfl⟩
  · rintro ⟨later, hlater, rfl⟩
    rcases link with d | target | ⟨size, target⟩
    · cases hlater
    · exact hlater.imp fun _ hnext => hnext.through hlink
    · exact hlater.imp fun _ hnext => hnext.cross hlink

theorem LinkAt.encard_segment_zero (hlink : LinkAt unit reference link) :
    (segment unit (some reference) 0).encard = (link.rest unit 0).encard + 1 := by
  have hsegment : segment unit (some reference) 0 =
      insert 0 ((fun place => place + 1) '' link.rest unit 0) := by
    ext place
    exact hlink.mem_segment_zero
  rw [hsegment, Set.encard_insert_of_notMem (by simp), (add_left_injective 1).encard_image]

theorem LinkAt.encard_segment_succ (hlink : LinkAt unit reference link) (depth : Nat) :
    (segment unit (some reference) (depth + 1)).encard =
      (link.rest unit (depth + 1)).encard := by
  have hsegment : segment unit (some reference) (depth + 1) =
      (fun place => place + 1) '' link.rest unit (depth + 1) := by
    ext place
    exact hlink.mem_segment_succ
  rw [hsegment, (add_left_injective 1).encard_image]

/-- At most `steps` entries in the first segment, `budget` in the next, then one less each. -/
def Fits (steps budget : Nat) (segments : Nat → Set Nat) : Prop :=
  (segments 0).encard ≤ steps ∧ ∀ depth, (segments (depth + 1)).encard ≤ (budget - depth : Nat)

theorem fits_iff_forall {budget : Nat} {segments : Nat → Set Nat} :
    Fits budget (budget - 1) segments ↔
      ∀ depth, (segments depth).encard ≤ (budget - depth : Nat) := by
  constructor
  · rintro ⟨hfirst, hlater⟩ (_ | depth)
    · exact hfirst
    · simpa only [Nat.sub_sub, Nat.add_comm] using hlater depth
  · intro h
    refine ⟨h 0, fun depth => ?_⟩
    simpa only [Nat.sub_sub, Nat.add_comm] using h (depth + 1)

theorem fits_none (steps budget : Nat) : Fits steps budget (segment unit none) := by
  simp [Fits, segment_none]

theorem not_fits_zero {budget : Nat} : ¬ Fits 0 budget (segment unit (some reference)) := by
  intro h
  have hempty : segment unit (some reference) 0 = ∅ := by simpa using h.1
  have hmem : 0 ∈ segment unit (some reference) 0 := ⟨reference, .here⟩
  simp [hempty] at hmem

theorem LinkAt.fits_iff (hlink : LinkAt unit reference link) {steps budget : Nat} :
    Fits (steps + 1) budget (segment unit (some reference)) ↔
      Fits steps budget (link.rest unit) := by
  simp only [Fits, hlink.encard_segment_zero, hlink.encard_segment_succ, Nat.cast_add,
    Nat.cast_one]
  rw [ENat.add_le_add_iff_right (by simp)]

theorem fits_described {description : TypeDescription} (steps budget : Nat) :
    Fits steps budget ((TypeLink.described description).rest unit) := by
  simp [Fits, TypeLink.rest]

theorem fits_pointer {size steps budget : Nat} {target : Option AttrValue} :
    Fits steps budget ((TypeLink.pointer size target).rest unit) ↔
      Fits budget (budget - 1) (segment unit target) := by
  rw [fits_iff_forall]
  simp [Fits, TypeLink.rest]

end Segments

/-! ## Descriptions -/

namespace TypeDescription

section Descriptions

variable {unit : CompilationUnit} {reference : Option AttrValue} {sizes : List Nat}
  {terminal : TypeDescription}

/-- Sizes of the pointers from the reference on, and what the chain ends with. -/
inductive Describes (unit : CompilationUnit) :
    Option AttrValue → List Nat → TypeDescription → Prop where
  | missing : Describes unit none [] void
  | ends {reference : AttrValue} {terminal : TypeDescription}
      (hlink : LinkAt unit reference (.described terminal)) :
      Describes unit (some reference) [] terminal
  | through {reference : AttrValue} {target : Option AttrValue} {sizes : List Nat}
      {terminal : TypeDescription} (hlink : LinkAt unit reference (.alias target))
      (hnext : Describes unit target sizes terminal) :
      Describes unit (some reference) sizes terminal
  | cross {reference : AttrValue} {size : Nat} {target : Option AttrValue} {sizes : List Nat}
      {terminal : TypeDescription} (hlink : LinkAt unit reference (.pointer size target))
      (hnext : Describes unit target sizes terminal) :
      Describes unit (some reference) (size :: sizes) terminal

theorem Describes.unique {sizes' : List Nat} {terminal' : TypeDescription}
    (h : Describes unit reference sizes terminal) (h' : Describes unit reference sizes' terminal') :
    sizes = sizes' ∧ terminal = terminal' := by
  induction h generalizing sizes' with
  | missing =>
      cases h'
      exact ⟨rfl, rfl⟩
  | ends hlink =>
      cases h' with
      | ends hlink' =>
          cases hlink.unique hlink'
          exact ⟨rfl, rfl⟩
      | through hlink' | cross hlink' => cases hlink.unique hlink'
  | through hlink _ ih =>
      cases h' with
      | ends hlink' | cross hlink' => cases hlink.unique hlink'
      | through hlink' hnext =>
          cases hlink.unique hlink'
          exact ih hnext
  | cross hlink _ ih =>
      cases h' with
      | ends hlink' | through hlink' => cases hlink.unique hlink'
      | cross hlink' hnext =>
          cases hlink.unique hlink'
          obtain ⟨rfl, rfl⟩ := ih hnext
          exact ⟨rfl, rfl⟩

theorem Describes.kind_ne_pointer (h : Describes unit reference sizes terminal) :
    terminal.kind ≠ .pointer := by
  induction h with
  | missing => decide
  | ends hlink =>
      obtain ⟨_, _, _, _, hsaid⟩ := hlink
      exact hsaid.kind_ne_pointer
  | through _ _ ih | cross _ _ ih => exact ih

def stars (count : Nat) : String :=
  String.join (List.replicate count " *")

theorem stars_succ (count : Nat) : stars (count + 1) = stars count ++ " *" := by
  apply String.toList_injective
  simp [stars, List.replicate_succ', String.toList_join]

def spelled : List Nat → TypeDescription → TypeDescription
  | [], terminal => terminal
  | size :: inner, terminal => ⟨.pointer, terminal.typeName ++ stars inner.length, size⟩

theorem pointerTo_spelled (size : Nat) (sizes : List Nat) (hterminal : terminal.kind ≠ .pointer) :
    pointerTo size (spelled sizes terminal) = spelled (size :: sizes) terminal := by
  cases sizes with
  | nil => simp [pointerTo, spelled, hterminal, stars]
  | cons inner sizes => simp [pointerTo, spelled, stars_succ, String.append_assoc]

/-- Every entry of the chain is in the unit and describes a type. -/
def Supported (unit : CompilationUnit) (reference : Option AttrValue) : Prop :=
  ∀ entry place depth, Visits unit reference place depth (some entry) →
    ∃ offset die, entry.unitRef? = some offset ∧ unit.entryAt offset = .ok die ∧
      Readable unit die

def Outcome (unit : CompilationUnit) (reference : Option AttrValue) (fits : Prop) :
    Except LookupError TypeDescription → Prop
  | .ok description => fits ∧
      ∃ sizes terminal, Describes unit reference sizes terminal ∧
        description = spelled sizes terminal
  | .error e => Supported unit reference →
      ¬ fits ∧ ∃ offset, e = .invalid (.deepTypeChain maxDepth offset)

theorem Supported.of_link {reference : AttrValue} {link : TypeLink} {target : Option AttrValue}
    (h : Supported unit (some reference)) (hlink : LinkAt unit reference link)
    (htarget : link = .alias target ∨ ∃ size, link = .pointer size target) :
    Supported unit target := by
  intro entry place depth hvisits
  rcases htarget with rfl | ⟨size, rfl⟩
  · exact h entry _ _ (hvisits.through hlink)
  · exact h entry _ _ (hvisits.cross hlink)

section Steps

variable {reference : AttrValue} {target : Option AttrValue} {fits : Prop}
  {size steps budget : Nat} {result : Except LookupError TypeDescription}

theorem outcome_localOffset {next : Nat → Except LookupError TypeDescription}
    (h : ∀ offset, reference.unitRef? = some offset →
      Outcome unit (some reference) fits (next offset)) :
    Outcome unit (some reference) fits (localOffset reference >>= next) := by
  cases href : reference.unitRef? with
  | none =>
      have hlocal : localOffset reference =
          .error (.invalid (.unsupportedReference reference.display)) := by
        simp [localOffset, href]
      rw [hlocal]
      intro hsupported
      obtain ⟨offset, -, href', -⟩ := hsupported _ _ _ .here
      cases href.symm.trans href'
  | some offset =>
      rw [localOffset_ok.mpr href]
      exact h offset href

theorem outcome_link {offset : Nat} {next : TypeLink → Except LookupError TypeDescription}
    (href : reference.unitRef? = some offset)
    (h : ∀ link, LinkAt unit reference link → Outcome unit (some reference) fits (next link)) :
    Outcome unit (some reference) fits
      (decoded (unit.entryAt offset) >>= fun die => TypeLink.ofDie unit die >>= next) := by
  have hread : Supported unit (some reference) → ∃ die link, unit.entryAt offset = .ok die ∧
      TypeLink.ofDie unit die = .ok link := by
    intro hsupported
    obtain ⟨offset', die, href', hentry, hreadable⟩ := hsupported _ _ _ .here
    cases href.symm.trans href'
    exact ⟨die, hreadable.exists_ofDie.imp fun _ hlink => ⟨hentry, hlink⟩⟩
  cases hentry : unit.entryAt offset with
  | error fault =>
      intro hsupported
      obtain ⟨die, link, hentry', -⟩ := hread hsupported
      cases hentry.symm.trans hentry'
  | ok die =>
      change Outcome unit (some reference) fits (TypeLink.ofDie unit die >>= next)
      cases hlink : TypeLink.ofDie unit die with
      | error e =>
          intro hsupported
          obtain ⟨die', link, hentry', hlink'⟩ := hread hsupported
          cases hentry.symm.trans hentry'
          cases hlink.symm.trans hlink'
      | ok link => exact h link ⟨offset, die, href, hentry, says_of_ofDie hlink⟩

theorem outcome_alias (hlink : LinkAt unit reference (.alias target))
    (h : Outcome unit target (Fits steps budget (segment unit target)) result) :
    Outcome unit (some reference) (Fits (steps + 1) budget (segment unit (some reference)))
      result := by
  rw [hlink.fits_iff]
  cases result with
  | ok description =>
      obtain ⟨hfits, sizes, terminal, hdescribes, heq⟩ := h
      exact ⟨hfits, sizes, terminal, hdescribes.through hlink, heq⟩
  | error e => exact fun hsupported => h (hsupported.of_link hlink (.inl rfl))

theorem outcome_pointer (hlink : LinkAt unit reference (.pointer size target))
    (h : Outcome unit target (Fits budget (budget - 1) (segment unit target)) result) :
    Outcome unit (some reference) (Fits (steps + 1) budget (segment unit (some reference)))
      (result.map (pointerTo size)) := by
  rw [hlink.fits_iff, fits_pointer]
  cases result with
  | ok description =>
      obtain ⟨hfits, sizes, terminal, hdescribes, rfl⟩ := h
      exact ⟨hfits, size :: sizes, terminal, hdescribes.cross hlink,
        pointerTo_spelled size sizes hdescribes.kind_ne_pointer⟩
  | error e => exact fun hsupported => h (hsupported.of_link hlink (.inr ⟨size, rfl⟩))

end Steps

theorem outcome_none (steps budget : Nat) :
    Outcome unit none (Fits steps budget (segment unit none)) (.ok void) :=
  ⟨fits_none _ _, [], void, .missing, rfl⟩

theorem outcome_follow {pointee : Option AttrValue → Except LookupError TypeDescription}
    {budget : Nat} (hpointee : ∀ target, Outcome unit target
      (Fits budget (budget - 1) (segment unit target)) (pointee target))
    {reference : AttrValue} {steps offset : Nat} (href : reference.unitRef? = some offset) :
    Outcome unit (some reference) (Fits steps budget (segment unit (some reference)))
      (follow unit pointee steps offset) := by
  induction steps generalizing reference offset with
  | zero => exact fun _ => ⟨not_fits_zero, offset, rfl⟩
  | succ steps ih =>
      refine outcome_link href fun link hlink => ?_
      rcases link with description | (_ | target) | ⟨size, target⟩
      · exact ⟨hlink.fits_iff.mpr (fits_described _ _), [], description, .ends hlink, rfl⟩
      · exact outcome_alias hlink (outcome_none _ _)
      · exact outcome_alias hlink (outcome_localOffset fun _ htarget => ih htarget)
      · exact outcome_pointer hlink (hpointee target)

theorem outcome_within (unit : CompilationUnit) (budget : Nat) (reference : Option AttrValue) :
    Outcome unit reference (Fits budget (budget - 1) (segment unit reference))
      (within unit budget reference) := by
  induction budget generalizing reference with
  | zero =>
      cases reference with
      | none => exact outcome_none _ _
      | some reference =>
          exact outcome_localOffset fun offset _ _ => ⟨not_fits_zero, offset, rfl⟩
  | succ budget ih =>
      cases reference with
      | none => exact outcome_none _ _
      | some reference => exact outcome_localOffset fun _ href => outcome_follow ih href

/-- The first segment has 32 entries at most, and each that follows has one less. -/
def Short (unit : CompilationUnit) (reference : Option AttrValue) : Prop :=
  ∀ depth, (segment unit reference depth).encard ≤ (32 - depth : Nat)

theorem outcome_ofReference (unit : CompilationUnit) (reference : Option AttrValue) :
    Outcome unit reference (Short unit reference) (ofReference unit reference) := by
  have h := outcome_within unit 32 reference
  rwa [fits_iff_forall] at h

theorem exists_describes_of_ofReference {description : TypeDescription}
    (h : ofReference unit reference = .ok description) :
    ∃ sizes terminal, Describes unit reference sizes terminal ∧
      description = spelled sizes terminal := by
  have houtcome := outcome_ofReference unit reference
  rw [h] at houtcome
  exact houtcome.2

/-- A chain that comes to an end visits a limited number of entries. -/
theorem Describes.exists_bound (h : Describes unit reference sizes terminal) :
    ∃ bound, ∀ place depth entry, Visits unit reference place depth (some entry) →
      place < bound := by
  induction h with
  | missing => exact ⟨0, nofun⟩
  | ends hlink =>
      refine ⟨1, fun place depth entry hvisits => ?_⟩
      cases hvisits with
      | here => exact Nat.one_pos
      | through hlink' | cross hlink' => cases hlink.unique hlink'
  | through hlink _ ih =>
      obtain ⟨bound, hbound⟩ := ih
      refine ⟨bound + 1, fun place depth entry hvisits => ?_⟩
      cases hvisits with
      | here => exact bound.succ_pos
      | through hlink' hnext =>
          cases hlink.unique hlink'
          exact Nat.succ_lt_succ (hbound _ _ _ hnext)
      | cross hlink' => cases hlink.unique hlink'
  | cross hlink _ ih =>
      obtain ⟨bound, hbound⟩ := ih
      refine ⟨bound + 1, fun place depth entry hvisits => ?_⟩
      cases hvisits with
      | here => exact bound.succ_pos
      | through hlink' => cases hlink.unique hlink'
      | cross hlink' hnext =>
          cases hlink.unique hlink'
          exact Nat.succ_lt_succ (hbound _ _ _ hnext)

theorem Describes.no_return {entry : AttrValue} {place depth place' depth' : Nat}
    (h : Describes unit reference sizes terminal)
    (hvisits : Visits unit reference place depth (some entry))
    (hreturn : Visits unit (some entry) place' depth' (some entry)) : place' = 0 := by
  obtain ⟨bound, hbound⟩ := h.exists_bound
  have hrounds : ∀ rounds, Visits unit reference (place + rounds * place')
      (depth + rounds * depth') (some entry) := by
    intro rounds
    induction rounds with
    | zero => simpa using hvisits
    | succ rounds ih => simpa [Nat.succ_mul, Nat.add_assoc] using ih.append hreturn
  have hlast := hbound _ _ _ (hrounds bound)
  by_contra hne
  have hrounds : bound ≤ bound * place' := Nat.le_mul_of_pos_right bound (Nat.pos_of_ne_zero hne)
  omega

/--
A type whose entries can be read is described exactly if its chain is short.  The
description is what the chain says, and otherwise the chain is refused as too deep, in
particular if it comes back to an entry.
-/
theorem type_descriptions (hsupported : Supported unit reference) :
    (Short unit reference → ∃ sizes terminal, Describes unit reference sizes terminal ∧
        ofReference unit reference = .ok (spelled sizes terminal)) ∧
      (¬ Short unit reference → ∃ offset,
        ofReference unit reference = .error (.invalid (.deepTypeChain 32 offset))) ∧
      ∀ entry place depth place' depth', Visits unit reference place depth (some entry) →
        Visits unit (some entry) place' depth' (some entry) → 0 < place' →
        ¬ Short unit reference := by
  have houtcome := outcome_ofReference unit reference
  cases hresult : ofReference unit reference with
  | ok description =>
      rw [hresult] at houtcome
      obtain ⟨hshort, sizes, terminal, hdescribes, rfl⟩ := houtcome
      refine ⟨fun _ => ⟨sizes, terminal, hdescribes, rfl⟩, fun hlong => absurd hshort hlong, ?_⟩
      intro entry place depth place' depth' hvisits hreturn hpos
      exact absurd (hdescribes.no_return hvisits hreturn) hpos.ne'
  | error e =>
      rw [hresult] at houtcome
      obtain ⟨hlong, offset, rfl⟩ := houtcome hsupported
      exact ⟨fun hshort => absurd hshort hlong, fun _ => ⟨offset, rfl⟩,
        fun _ _ _ _ _ _ _ _ => hlong⟩

end Descriptions

def pointersUnit : CompilationUnit where
  entries := .empty
  entryAt
    | 0 => .ok ⟨0, Tag.baseType, false, [(AttrName.name, .text .empty)], .ok 0⟩
    | offset + 1 =>
        .ok ⟨offset + 1, Tag.pointerType, false, [(AttrName.type, .unitRef offset)], .ok 0⟩
  childrenAt _ := .empty
  text _ := .ok "int"
  firstOperation? _ := .ok none

theorem pointersUnit_links (offset : Nat) :
    LinkAt pointersUnit (.unitRef 0) (.described ⟨.base, "int", 0⟩) ∧
      LinkAt pointersUnit (.unitRef (offset + 1)) (.pointer 8 (some (.unitRef offset))) :=
  ⟨⟨0, _, rfl, rfl, @Says.base _ _ (some "int") none rfl rfl rfl⟩,
    ⟨offset + 1, _, rfl, rfl, @Says.pointer _ _ none _ rfl rfl rfl⟩⟩

theorem supported_pointersUnit (offset : Nat) :
    Supported pointersUnit (some (.unitRef offset)) := by
  intro entry place depth hvisits
  generalize hstart : some (AttrValue.unitRef offset) = start at hvisits
  generalize hend : some entry = last at hvisits
  induction hvisits generalizing offset with
  | here =>
      cases hstart
      cases hend
      cases offset with
      | zero => exact ⟨0, _, rfl, rfl, ⟨rfl, rfl, rfl⟩⟩
      | succ offset => exact ⟨offset + 1, _, rfl, rfl, ⟨rfl, rfl, rfl⟩⟩
  | through hlink =>
      cases hstart
      cases offset with
      | zero => cases hlink.unique (pointersUnit_links 0).1
      | succ offset => cases hlink.unique (pointersUnit_links offset).2
  | cross hlink _ ih =>
      cases hstart
      cases offset with
      | zero => cases hlink.unique (pointersUnit_links 0).1
      | succ offset =>
          cases hlink.unique (pointersUnit_links offset).2
          exact ih offset rfl hend

theorem type_descriptions_pointers :
    Supported pointersUnit (some (.unitRef 2)) ∧
      Describes pointersUnit (some (.unitRef 2)) [8, 8] ⟨.base, "int", 0⟩ ∧
      ofReference pointersUnit (some (.unitRef 2)) = .ok ⟨.pointer, "int" ++ " *", 8⟩ := by
  have hdescribes : Describes pointersUnit (some (.unitRef 2)) [8, 8] ⟨.base, "int", 0⟩ :=
    .cross (pointersUnit_links 1).2 (.cross (pointersUnit_links 0).2
      (.ends (pointersUnit_links 0).1))
  obtain ⟨hshort, hlong, -⟩ := type_descriptions (supported_pointersUnit 2)
  have hchain : Short pointersUnit (some (.unitRef 2)) := by
    by_contra h
    obtain ⟨offset, hrefused⟩ := hlong h
    cases hrefused
  obtain ⟨sizes, terminal, hdescribes', hresult⟩ := hshort hchain
  obtain ⟨rfl, rfl⟩ := hdescribes.unique hdescribes'
  exact ⟨supported_pointersUnit 2, hdescribes, hresult⟩

end TypeDescription

end ProbeLowering.Dwarf
