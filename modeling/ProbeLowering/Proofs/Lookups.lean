import ProbeLowering.Proofs.RecordLookup

/-!
# Functions and records by name

A name is taken from the nearest entry that carries it: the entry itself, or one of the
entries that it leads to from origin to origin, eight at most, so that origins in a cycle do
no harm.  Where all entries can be decoded, a record is found by its own name: the first one
that has it, or none only if none has it.  A function is found likewise, as the first entry
with code of its own that has the symbol for a name or a linkage name, if the origins that
are followed for these names lead to entries (`lookups_exact`).  One that leads nowhere ends
the whole lookup (`lookup_ends_at_lost_origin`).
-/

namespace ProbeLowering.Dwarf

open DebugInfo (LookupError)

inductive OriginAt (die : Die) (offset : Nat) : Prop where
  | instantiates (origin : die.attr? AttrName.abstractOrigin = .ok (some (.unitRef offset)))
  | completes
      (noOrigin : ∀ other, die.attr? AttrName.abstractOrigin ≠ .ok (some (.unitRef other)))
      (specification : die.attr? AttrName.specification = .ok (some (.unitRef offset)))

/-- From origin to origin, the first entry leads to the last one in `count` steps. -/
inductive Origins (unit : CompilationUnit) : Die → (count : Nat) → Die → Prop where
  | self {die : Die} : Origins unit die 0 die
  | next {die origin last : Die} {offset count : Nat} (horigin : OriginAt die offset)
      (hentry : unit.entryAt offset = .ok origin) (hrest : Origins unit origin count last) :
      Origins unit die (count + 1) last

/-- The value at the nearest entry that has the attribute, among this one and `limit` origins. -/
def NearestWithin (unit : CompilationUnit) (limit : Nat) (die : Die) (name : AttrName)
    (value : AttrValue) : Prop :=
  ∃ count carrier, count ≤ limit ∧ Origins unit die count carrier ∧
    carrier.attr? name = .ok (some value) ∧
    ∀ nearer other, nearer < count → Origins unit die nearer other → other.attr? name = .ok none

structure Legible (unit : CompilationUnit) (die : Die) : Prop where
  attrs : die.next.isOk
  names : ∀ name ∈ [AttrName.name, AttrName.linkageName], (ownText? unit die name).isOk

structure CompilationUnit.Legible (unit : CompilationUnit) : Prop where
  complete : unit.entries.fault = none
  entries : ∀ die ∈ unit.entries.items, Dwarf.Legible unit die

/-- As long as the attribute is missing, each of the next `limit` origins is a legible entry. -/
def OriginsLegible (unit : CompilationUnit) (name : AttrName) : (limit : Nat) → Die → Prop
  | 0, _ => True
  | limit + 1, die => die.attr? name = .ok none → ∀ offset, OriginAt die offset →
      ∃ origin, unit.entryAt offset = .ok origin ∧ Legible unit origin ∧
        OriginsLegible unit name limit origin

section Attributes

variable {unit : CompilationUnit} {die origin : Die} {name : AttrName} {value : AttrValue}
  {offset limit : Nat}

theorem OriginAt.unique {other : Nat} (h : OriginAt die offset) (h' : OriginAt die other) :
    offset = other := by
  cases h with
  | instantiates horigin =>
      cases h' with
      | instantiates horigin' =>
          cases horigin.symm.trans horigin'
          rfl
      | completes hnone => exact absurd horigin (hnone offset)
  | completes hnone hspecification =>
      cases h' with
      | instantiates horigin' => exact absurd horigin' (hnone other)
      | completes _ hspecification' =>
          cases hspecification.symm.trans hspecification'
          rfl

theorem unitRef?_eq_some {value : AttrValue} : value.unitRef? = some offset ↔
    value = .unitRef offset := by
  cases value <;> simp [AttrValue.unitRef?]

theorem Die.exists_origin (h : die.next.isOk) :
    ∃ origin?, die.origin? = .ok origin? ∧
      ∀ offset, origin? = some offset ↔ OriginAt die offset := by
  obtain ⟨instance?, hinstance⟩ := exists_attr h AttrName.abstractOrigin
  obtain ⟨specification?, hspecification⟩ := exists_attr h AttrName.specification
  cases href : instance?.bind AttrValue.unitRef? with
  | some found =>
      obtain ⟨value, rfl, hvalue⟩ := Option.bind_eq_some_iff.mp href
      obtain rfl := unitRef?_eq_some.mp hvalue
      have hat : OriginAt die found := .instantiates hinstance
      refine ⟨some found, ?_, fun offset => ⟨?_, fun hoffset => ?_⟩⟩
      · simp [origin?, hinstance, AttrValue.unitRef?]
      · rintro ⟨⟩
        exact hat
      · rw [hat.unique hoffset]
  | none =>
      have hnone : ∀ other, die.attr? AttrName.abstractOrigin ≠ .ok (some (.unitRef other)) := by
        intro other heq
        cases hinstance.symm.trans heq
        cases href
      refine ⟨specification?.bind AttrValue.unitRef?, ?_, fun offset => ⟨fun hoffset => ?_, ?_⟩⟩
      · simp [origin?, hinstance, hspecification, href]
      · obtain ⟨value, rfl, hvalue⟩ := Option.bind_eq_some_iff.mp hoffset
        obtain rfl := unitRef?_eq_some.mp hvalue
        exact .completes hnone hspecification
      · rintro (horigin | ⟨-, hcompletes⟩)
        · exact absurd horigin (hnone offset)
        · cases hspecification.symm.trans hcompletes
          rfl

theorem nearestWithin_own (hown : die.attr? name = .ok (some value)) {found : AttrValue} :
    NearestWithin unit limit die name found ↔ value = found := by
  constructor
  · rintro ⟨count, carrier, -, horigins, hcarrier, hnearer⟩
    cases horigins with
    | self =>
        cases hown.symm.trans hcarrier
        rfl
    | next => cases hown.symm.trans (hnearer 0 die (Nat.succ_pos _) .self)
  · rintro rfl
    exact ⟨0, die, Nat.zero_le _, .self, hown, fun _ _ hlt => absurd hlt (Nat.not_lt_zero _)⟩

theorem nearestWithin_zero (hown : die.attr? name = .ok none) :
    ¬ NearestWithin unit 0 die name value := by
  rintro ⟨count, carrier, hcount, horigins, hcarrier, -⟩
  cases horigins with
  | self => cases hown.symm.trans hcarrier
  | next => cases hcount

theorem not_nearestWithin_of_lost (hown : die.attr? name = .ok none)
    (hlost : ∀ offset origin, OriginAt die offset → unit.entryAt offset ≠ .ok origin) :
    ¬ NearestWithin unit limit die name value := by
  rintro ⟨count, carrier, -, horigins, hcarrier, -⟩
  cases horigins with
  | self => cases hown.symm.trans hcarrier
  | next horigin hentry => exact hlost _ _ horigin hentry

theorem nearestWithin_succ (hown : die.attr? name = .ok none) (horigin : OriginAt die offset)
    (hentry : unit.entryAt offset = .ok origin) :
    NearestWithin unit (limit + 1) die name value ↔ NearestWithin unit limit origin name value := by
  constructor
  · rintro ⟨count, carrier, hcount, horigins, hcarrier, hnearer⟩
    cases horigins with
    | self => cases hown.symm.trans hcarrier
    | next horigin' hentry' hrest =>
        cases horigin.unique horigin'
        cases hentry.symm.trans hentry'
        refine ⟨_, carrier, Nat.le_of_succ_le_succ hcount, hrest, hcarrier, ?_⟩
        intro nearer other hlt hother
        exact hnearer (nearer + 1) other (Nat.succ_lt_succ hlt) (.next horigin hentry hother)
  · rintro ⟨count, carrier, hcount, horigins, hcarrier, hnearer⟩
    refine ⟨count + 1, carrier, Nat.succ_le_succ hcount, .next horigin hentry horigins,
      hcarrier, ?_⟩
    intro nearer other hlt hother
    cases hother with
    | self => exact hown
    | next horigin' hentry' hrest =>
        cases horigin.unique horigin'
        cases hentry.symm.trans hentry'
        exact hnearer _ other (Nat.lt_of_succ_lt_succ hlt) hrest

/-- By induction on the number of origins that may still be asked. -/
theorem originAttr?_spec (hlegible : Legible unit die)
    (horigins : OriginsLegible unit name limit die) (hown : die.attr? name = .ok none)
    {origin? : Option Nat} (horigin : die.origin? = .ok origin?) :
    ∃ found?, originAttr? unit name limit origin? = .ok found? ∧
      (∀ value, found? = some value ↔ NearestWithin unit limit die name value) ∧
      ∀ value, found? = some value →
        ∃ carrier, Legible unit carrier ∧ carrier.attr? name = .ok (some value) := by
  induction limit generalizing die origin? with
  | zero => exact ⟨none, rfl, fun value => iff_of_false nofun (nearestWithin_zero hown), nofun⟩
  | succ limit ih =>
      obtain ⟨origin?', horigin', hat⟩ := Die.exists_origin hlegible.attrs
      cases horigin.symm.trans horigin'
      cases origin? with
      | none =>
          exact ⟨none, rfl, fun value => iff_of_false nofun
            (not_nearestWithin_of_lost hown fun offset _ h => nomatch (hat offset).mpr h), nofun⟩
      | some offset =>
          have hoffset : OriginAt die offset := (hat offset).mp rfl
          obtain ⟨origin, hentry, hnext, hrest⟩ := horigins hown offset hoffset
          obtain ⟨carried?, hcarried⟩ := Die.exists_attr hnext.attrs name
          cases carried? with
          | some value =>
              refine ⟨some value, ?_, fun found => ?_, ?_⟩
              · simp [originAttr?, hentry, hcarried]
              · rw [nearestWithin_succ hown hoffset hentry, nearestWithin_own hcarried,
                  Option.some.injEq]
              · rintro _ ⟨⟩
                exact ⟨origin, hnext, hcarried⟩
          | none =>
              obtain ⟨next?, hnext?, -⟩ := Die.exists_origin hnext.attrs
              obtain ⟨found?, hfound, hnearest, hcarrier⟩ := ih hnext hrest hcarried hnext?
              refine ⟨found?, ?_, fun value => ?_, hcarrier⟩
              · simpa [originAttr?, hentry, hcarried, hnext?] using hfound
              · rw [nearestWithin_succ hown hoffset hentry, hnearest]

theorem inheritedAttr?_spec (hlegible : Legible unit die)
    (horigins : OriginsLegible unit name 8 die) :
    ∃ found?, inheritedAttr? unit die name = .ok found? ∧
      (∀ value, found? = some value ↔ NearestWithin unit 8 die name value) ∧
      ∀ value, found? = some value →
        ∃ carrier, Legible unit carrier ∧ carrier.attr? name = .ok (some value) := by
  obtain ⟨own?, hown⟩ := Die.exists_attr hlegible.attrs name
  cases own? with
  | some value =>
      refine ⟨some value, ?_, fun found => ?_, ?_⟩
      · simp [inheritedAttr?, hown]
      · rw [nearestWithin_own hown, Option.some.injEq]
      · rintro _ ⟨⟩
        exact ⟨die, hlegible, hown⟩
  | none =>
      obtain ⟨origin?, horigin, -⟩ := Die.exists_origin hlegible.attrs
      obtain ⟨found?, hfound, hspec⟩ := originAttr?_spec hlegible horigins hown horigin
      refine ⟨found?, ?_, hspec⟩
      simpa [inheritedAttr?, maxOrigins, hown, horigin] using hfound

/-- The nearest entry that carries a name of this kind carries this one. -/
def Bears (unit : CompilationUnit) (die : Die) (name : AttrName) (text : String) : Prop :=
  ∃ value, NearestWithin unit 8 die name value ∧ unit.text value = .ok text

theorem CompilationUnit.Legible.origins (h : unit.Legible)
    (hclosed : ∀ die ∈ unit.entries.items, ∀ offset, OriginAt die offset →
      ∃ origin ∈ unit.entries.items, unit.entryAt offset = .ok origin)
    (hdie : die ∈ unit.entries.items) : OriginsLegible unit name limit die := by
  induction limit generalizing die with
  | zero => trivial
  | succ limit ih =>
      intro _ offset hoffset
      obtain ⟨origin, hmem, hentry⟩ := hclosed die hdie offset hoffset
      exact ⟨origin, hentry, h.entries origin hmem, ih hmem⟩

theorem ownText?_of_attr (hown : die.attr? name = .ok (some value)) :
    ownText? unit die name = (unit.text value).map some := by
  cases htext : unit.text value <;>
    simp [ownText?, hown, htext, Except.map]

theorem inheritedText?_spec (hlegible : Legible unit die)
    (hname : name ∈ [AttrName.name, AttrName.linkageName])
    (horigins : OriginsLegible unit name 8 die) :
    ∃ text?, inheritedText? unit die name = .ok text? ∧
      ∀ text, text? = some text ↔ Bears unit die name text := by
  obtain ⟨found?, hfound, hnearest, hcarrier⟩ := inheritedAttr?_spec hlegible horigins
  cases found? with
  | none =>
      refine ⟨none, ?_, fun text => iff_of_false nofun ?_⟩
      · simp [inheritedText?, hfound]
      · rintro ⟨value, hvalue, -⟩
        cases (hnearest value).mpr hvalue
  | some value =>
      obtain ⟨carrier, hlegible, hcarries⟩ := hcarrier value rfl
      obtain ⟨text, htext⟩ : ∃ text, unit.text value = .ok text := by
        have hown := hlegible.names name hname
        rw [ownText?_of_attr hcarries] at hown
        cases htext : unit.text value with
        | error fault => simp [htext, Except.map, Except.isOk, Except.toBool] at hown
        | ok text => exact ⟨text, rfl⟩
      refine ⟨some text, ?_, fun other => ⟨?_, ?_⟩⟩
      · simp [inheritedText?, hfound, htext]
      · rintro ⟨⟩
        exact ⟨value, (hnearest value).mp rfl, htext⟩
      · rintro ⟨value', hvalue', htext'⟩
        cases (hnearest value').mpr hvalue'
        cases htext.symm.trans htext'
        rfl

end Attributes

/-! ## Functions -/

structure OwnsCode (die : Die) : Prop where
  tag : die.tag = Tag.subprogram
  defined : die.attr? AttrName.declaration ≠ .ok (some (.flag true))
  code : ∃ name ∈ [AttrName.lowPc, AttrName.ranges], ∃ value, die.attr? name = .ok (some value)

structure HoldsCode (symbol : String) (unit : CompilationUnit) (die : Die) : Prop
    extends OwnsCode die where
  named : ∃ name ∈ [AttrName.name, AttrName.linkageName], Bears unit die name symbol

section Functions

variable {units : Listing CompilationUnit} {unit : CompilationUnit} {die : Die} {symbol : String}

theorem Legible.isDeclaration (h : Legible unit die) :
    ∃ announced, die.isDeclaration = .ok announced ∧
      (announced = true ↔ die.attr? AttrName.declaration = .ok (some (.flag true))) := by
  obtain ⟨value?, hvalue⟩ := Die.exists_attr h.attrs AttrName.declaration
  rw [hvalue, Except.ok.injEq]
  unfold Die.isDeclaration
  rw [hvalue]
  rcases value? with _ | value
  · exact ⟨false, rfl, by simp⟩
  · cases value <;> exact ⟨_, rfl, by simp⟩

theorem Legible.hasCode (h : Legible unit die) : ∃ code, die.hasCode = .ok code ∧
    (code = true ↔ ∃ name ∈ [AttrName.lowPc, AttrName.ranges], ∃ value,
      die.attr? name = .ok (some value)) := by
  obtain ⟨lowPc?, hlowPc⟩ := Die.exists_attr h.attrs AttrName.lowPc
  obtain ⟨ranges?, hranges⟩ := Die.exists_attr h.attrs AttrName.ranges
  refine ⟨lowPc?.isSome || ranges?.isSome, ?_, ?_⟩
  · cases lowPc? <;>
      simp [Die.hasCode, hlowPc, hranges]
  · cases lowPc? <;> cases ranges? <;> simp [hlowPc, hranges]

theorem isFunction_spec (hlegible : Legible unit die)
    (horigins : OwnsCode die → ∀ name ∈ [AttrName.name, AttrName.linkageName],
      OriginsLegible unit name 8 die) (symbol : String) :
    ∃ found, isFunction symbol unit die = .ok found ∧
      (found = true ↔ HoldsCode symbol unit die) := by
  obtain ⟨announced, hannounced, hdeclaration⟩ := hlegible.isDeclaration
  obtain ⟨code, hcode, hhasCode⟩ := hlegible.hasCode
  by_cases howns : OwnsCode die
  · have hdefined : announced = false :=
      Bool.eq_false_iff.mpr fun h => howns.defined (hdeclaration.mp h)
    have hhas : code = true := hhasCode.mpr howns.code
    obtain ⟨name?, hname, hbears⟩ :=
      inheritedText?_spec hlegible (by simp) (horigins howns AttrName.name (by simp))
    obtain ⟨linkage?, hlinkage, hlinked⟩ :=
      inheritedText?_spec hlegible (by simp) (horigins howns AttrName.linkageName (by simp))
    refine ⟨name? == some symbol || linkage? == some symbol, ?_, ?_⟩
    · simp [isFunction, howns.tag, hannounced, hdefined, hcode, hhas, hname, hlinkage]
    · simp only [Bool.or_eq_true, beq_iff_eq, hbears, hlinked]
      exact ⟨fun h => ⟨howns, by simpa using h⟩, fun h => by simpa using h.named⟩
  · refine ⟨false, ?_, iff_of_false nofun fun h => howns h.toOwnsCode⟩
    by_cases htag : die.tag = Tag.subprogram
    · cases announced with
      | true => simp [isFunction, htag, hannounced]
      | false =>
          have hdefined : die.attr? AttrName.declaration ≠ .ok (some (.flag true)) :=
            fun h => nomatch hdeclaration.mpr h
          have hhas : code = false :=
            Bool.eq_false_iff.mpr fun h => howns ⟨htag, hdefined, hhasCode.mp h⟩
          simp [isFunction, htag, hannounced, hcode, hhas]
    · simp [isFunction, htag]

theorem CompilationUnit.Legible.recordsDecode (h : unit.Legible) : unit.RecordsDecode := by
  refine ⟨h.complete, fun die hdie => ?_⟩
  obtain ⟨announced, hannounced, -⟩ := (h.entries die hdie).isDeclaration
  exact ⟨by rw [hannounced]; rfl, (h.entries die hdie).names AttrName.name (by simp)⟩

variable (hlegible : ∀ unit ∈ units.items, unit.Legible)

include hlegible

theorem decides_isFunction
    (horigins : ∀ unit ∈ units.items, ∀ die ∈ unit.entries.items, OwnsCode die →
      ∀ name ∈ [AttrName.name, AttrName.linkageName], OriginsLegible unit name 8 die)
    (symbol : String) : Decides units (isFunction symbol) (HoldsCode symbol) where
  complete unit hunit := (hlegible unit hunit).complete
  passes unit hunit die hdie h := by
    obtain ⟨found, hfound, hiff⟩ := isFunction_spec ((hlegible unit hunit).entries die hdie)
      (horigins unit hunit die hdie) symbol
    rw [hfound, hiff.mpr h]
  fails unit hunit die hdie h := by
    obtain ⟨found, hfound, hiff⟩ := isFunction_spec ((hlegible unit hunit).entries die hdie)
      (horigins unit hunit die hdie) symbol
    rw [hfound, Bool.eq_false_iff.mpr (mt hiff.mp h)]

/--
What is found for the name of a record is the first record of this name, and if it is missing,
then there is none.  What is found for a symbol is likewise the first entry with code of its
own that bears the symbol, if the origins that are followed for the names of such entries are
entries as well.
-/
theorem lookups_exact (hcomplete : units.fault = none) (symbol name : String) :
    ((∀ unit ∈ units.items, ∀ die ∈ unit.entries.items, OwnsCode die →
        ∀ name ∈ [AttrName.name, AttrName.linkageName], OriginsLegible unit name 8 die) →
      (∀ unit die, findFunction units symbol = .ok (unit, die) ↔
        FirstEntry units (HoldsCode symbol) unit die) ∧
      (findFunction units symbol = .error (.functionNotFound symbol) ↔
        ∀ unit ∈ units.items, ∀ die ∈ unit.entries.items, ¬ HoldsCode symbol unit die)) ∧
    (∀ unit die, findRecord units name = .ok (unit, die) ↔
      FirstEntry units (Defines name) unit die) ∧
    (findRecord units name = .error (.structNotFound name) ↔
      ∀ unit ∈ units.items, ∀ die ∈ unit.entries.items, ¬ Defines name unit die) := by
  have hrecords : ∀ unit ∈ units.items, unit.RecordsDecode :=
    fun unit hunit => (hlegible unit hunit).recordsDecode
  refine ⟨fun horigins => ?_, ?_⟩
  · exact (decides_isFunction hlegible horigins symbol).lookup_iff hcomplete
      (findFunction units symbol) (.functionNotFound symbol) rfl
  · exact (decides_isRecord hrecords name).lookup_iff hcomplete (findRecord units name)
      (.structNotFound name) rfl

end Functions

/-! ## An origin that leads nowhere -/

/--
Unit with two functions that have code.  The first one has no name and instantiates what is
at 255, far behind the end of the unit.  The second one is called `run`.
-/
def lostBytes : List UInt8 :=
  [35, 0, 0, 0, 4, 0, 0, 0, 0, 0, 8] ++
    [1] ++
    [2, 0, 16, 0, 0, 0, 0, 0, 0, 255, 0, 0, 0] ++
    [3, 114, 117, 110, 0, 0, 32, 0, 0, 0, 0, 0, 0] ++ [0]

def lostAbbreviations : List UInt8 :=
  [1, 0x11, 1, 0, 0] ++
    [2, 0x2e, 0, 0x11, 0x01, 0x31, 0x13, 0, 0] ++
    [3, 0x2e, 0, 0x03, 0x08, 0x11, 0x01, 0, 0] ++ [0]

def lostUnits : Listing CompilationUnit :=
  Sections.units {
    order := .little, info := ⟨lostBytes.toArray⟩, abbrev_ := ⟨lostAbbreviations.toArray⟩ }

theorem length_lostUnits : lostUnits.items.length = 1 := by decide +kernel

def lostUnit : CompilationUnit := lostUnits.only length_lostUnits

theorem length_entries_lostUnit : lostUnit.entries.items.length = 3 := by decide +kernel

def lostEntry (k : Fin 3) : Die :=
  lostUnit.entries.items.get (k.cast length_entries_lostUnit.symm)

theorem items_lostUnits : lostUnits.items = [lostUnit] := Listing.items_eq_only length_lostUnits

theorem lookup_ends_at_lost_origin :
    (∀ unit ∈ lostUnits.items, unit.Legible) ∧ lostUnits.fault = none ∧
      FirstEntry lostUnits (HoldsCode "run") lostUnit (lostEntry 2) ∧
      findFunction lostUnits "run" = .error (.malformed "offset 255 is outside its unit") := by
  have hlegible : lostUnit.entries.fault = none ∧ ∀ die ∈ lostUnit.entries.items, die.next.isOk ∧
      ∀ name ∈ [AttrName.name, AttrName.linkageName], (ownText? lostUnit die name).isOk := by
    decide +kernel
  have hentries : lostUnit.entries.items = [lostEntry 0, lostEntry 1] ++ lostEntry 2 :: [] ∧
      (lostEntry 0).tag ≠ Tag.subprogram ∧
      (∀ name ∈ [AttrName.name, AttrName.linkageName],
        (lostEntry 1).attr? name = .ok none) ∧
      (lostEntry 1).origin? = .ok (some 255) ∧
      lostUnit.entryAt 255 = .error (.offsetOutOfBounds 255) := by decide +kernel
  have hrun : (lostEntry 2).tag = Tag.subprogram ∧
      (lostEntry 2).attr? AttrName.declaration = .ok none ∧
      (lostEntry 2).attr? AttrName.lowPc = .ok (some (.address 8192)) ∧
      (lostEntry 2).attr? AttrName.name = .ok (some (.text ⟨#[114, 117, 110]⟩)) ∧
      lostUnit.text (.text ⟨#[114, 117, 110]⟩) = .ok "run" := by decide +kernel
  have hsearch : lostUnit.entries.findM? (isFunction "run" lostUnit) =
      .error (.offsetOutOfBounds 255) := by decide +kernel
  obtain ⟨hcomplete, hdecoded⟩ := hlegible
  obtain ⟨hitems, htag, hnameless, horigin, hlost⟩ := hentries
  obtain ⟨hsubprogram, hdefined, hcode, hname, htext⟩ := hrun
  have hmem : lostEntry 1 ∈ lostUnit.entries.items := by simp [hitems]
  have hholds : HoldsCode "run" lostUnit (lostEntry 2) :=
    { tag := hsubprogram
      defined := by simp [hdefined]
      code := ⟨_, List.mem_cons_self, _, hcode⟩
      named := ⟨_, List.mem_cons_self, _, (nearestWithin_own hname).mpr rfl, htext⟩ }
  have hunnamed : ¬ HoldsCode "run" lostUnit (lostEntry 1) := by
    rintro ⟨-, name, hkind, value, hnearest, -⟩
    obtain ⟨origin?, hfound, hiff⟩ := Die.exists_origin (hdecoded _ hmem).1
    rw [horigin, Except.ok.injEq] at hfound
    refine not_nearestWithin_of_lost (hnameless name hkind) (fun offset origin hat hentry => ?_)
      hnearest
    have hoffset := (hiff offset).mpr hat
    rw [← hfound, Option.some.injEq] at hoffset
    rw [← hoffset, hlost] at hentry
    cases hentry
  refine ⟨?_, by decide +kernel, ⟨⟨[], [], items_lostUnits, List.forall_mem_nil _, lostEntry 2,
    by simp [hitems], hholds⟩, ⟨_, _, hitems, ?_, hholds⟩⟩, ?_⟩
  · rw [items_lostUnits, List.forall_mem_singleton]
    exact ⟨hcomplete, fun die hdie => ⟨(hdecoded die hdie).1, (hdecoded die hdie).2⟩⟩
  · simp only [List.forall_mem_cons]
    exact ⟨fun h => htag h.tag, hunnamed, List.forall_mem_nil _⟩
  · rw [findFunction, findDie?, Listing.findSomeM?, items_lostUnits, List.findSomeM?, hsearch]
    rfl

/-! ## Origins in a cycle -/

/--
Unit with two functions that have code: the first one instantiates itself and has no name.
The second one instantiates an entry with the linkage name `_Zr`, which instantiates one with
the name `run`, which completes the one before it.  The record `conn` is announced first.
-/
def cyclicBytes : List UInt8 :=
  [65, 0, 0, 0, 4, 0, 0, 0, 0, 0, 8] ++
    [1] ++
    [2, 0, 16, 0, 0, 0, 0, 0, 0, 12, 0, 0, 0] ++
    [2, 0, 32, 0, 0, 0, 0, 0, 0, 38, 0, 0, 0] ++
    [3, 95, 90, 114, 0, 47, 0, 0, 0] ++
    [4, 114, 117, 110, 0, 38, 0, 0, 0] ++
    [5, 99, 111, 110, 110, 0] ++
    [6, 99, 111, 110, 110, 0] ++ [0]

def cyclicAbbreviations : List UInt8 :=
  [1, 0x11, 1, 0, 0] ++
    [2, 0x2e, 0, 0x11, 0x01, 0x31, 0x13, 0, 0] ++
    [3, 0x2e, 0, 0x6e, 0x08, 0x31, 0x13, 0, 0] ++
    [4, 0x2e, 0, 0x03, 0x08, 0x47, 0x13, 0, 0] ++
    [5, 0x13, 0, 0x03, 0x08, 0x3c, 0x19, 0, 0] ++
    [6, 0x13, 0, 0x03, 0x08, 0, 0] ++ [0]

def cyclicUnits : Listing CompilationUnit :=
  Sections.units {
    order := .little, info := ⟨cyclicBytes.toArray⟩, abbrev_ := ⟨cyclicAbbreviations.toArray⟩ }

theorem length_cyclicUnits : cyclicUnits.items.length = 1 := by decide +kernel

def cyclicUnit : CompilationUnit := cyclicUnits.only length_cyclicUnits

theorem length_entries_cyclicUnit : cyclicUnit.entries.items.length = 7 := by decide +kernel

def cyclicEntry (k : Fin 7) : Die :=
  cyclicUnit.entries.items.get (k.cast length_entries_cyclicUnit.symm)

theorem items_cyclicUnits : cyclicUnits.items = [cyclicUnit] :=
  Listing.items_eq_only length_cyclicUnits

theorem legible_cyclicUnit :
    cyclicUnit.Legible ∧ ∀ die ∈ cyclicUnit.entries.items, ∀ name limit,
      OriginsLegible cyclicUnit name limit die := by
  have hentries : cyclicUnit.entries.fault = none ∧ ∀ die ∈ cyclicUnit.entries.items,
      die.next.isOk ∧ (∀ name ∈ [AttrName.name, AttrName.linkageName],
        (ownText? cyclicUnit die name).isOk) ∧
      ∀ offset ∈ die.origin?.toOption.join, ∃ origin ∈ cyclicUnit.entries.items,
        cyclicUnit.entryAt offset = .ok origin := by decide +kernel
  obtain ⟨hcomplete, hentries⟩ := hentries
  have hlegible : cyclicUnit.Legible :=
    ⟨hcomplete, fun die hdie => ⟨(hentries die hdie).1, (hentries die hdie).2.1⟩⟩
  refine ⟨hlegible, fun die hdie name limit => hlegible.origins (fun die hdie offset hoffset => ?_)
    hdie⟩
  obtain ⟨origin?, horigin, hat⟩ := Die.exists_origin (hentries die hdie).1
  refine (hentries die hdie).2.2 offset ?_
  rw [horigin, (hat offset).mpr hoffset]
  rfl

theorem lookups_exact_cyclicUnits :
    (∀ unit ∈ cyclicUnits.items, unit.Legible) ∧ cyclicUnits.fault = none ∧
    (∀ unit ∈ cyclicUnits.items, ∀ die ∈ unit.entries.items, OwnsCode die →
      ∀ name ∈ [AttrName.name, AttrName.linkageName], OriginsLegible unit name 8 die) ∧
    (∀ symbol ∈ ["run", "_Zr"],
      FirstEntry cyclicUnits (HoldsCode symbol) cyclicUnit (cyclicEntry 2)) ∧
    (∀ die ∈ cyclicUnit.entries.items, ¬ HoldsCode "walk" cyclicUnit die) ∧
    FirstEntry cyclicUnits (Defines "conn") cyclicUnit (cyclicEntry 6) := by
  have hlegible : ∀ unit ∈ cyclicUnits.items, unit.Legible := by
    rw [items_cyclicUnits, List.forall_mem_singleton]
    exact legible_cyclicUnit.1
  have horigins : ∀ unit ∈ cyclicUnits.items, ∀ die ∈ unit.entries.items, OwnsCode die →
      ∀ name ∈ [AttrName.name, AttrName.linkageName], OriginsLegible unit name 8 die := by
    rw [items_cyclicUnits, List.forall_mem_singleton]
    exact fun die hdie _ name _ => legible_cyclicUnit.2 die hdie name 8
  have hcomplete : cyclicUnits.fault = none := by decide +kernel
  have hrun : ∀ symbol ∈ ["run", "_Zr"],
      cyclicUnit.entries.findM? (isFunction symbol cyclicUnit) =
        .ok (some (cyclicEntry 2)) := by decide +kernel
  have hwalk : cyclicUnit.entries.findM? (isFunction "walk" cyclicUnit) = .ok none := by
    decide +kernel
  have hconn : cyclicUnit.entries.findM? (isRecord "conn" cyclicUnit) =
      .ok (some (cyclicEntry 6)) := by decide +kernel
  have hexact := lookups_exact hlegible hcomplete
  refine ⟨hlegible, hcomplete, horigins, fun symbol hsymbol => ?_, ?_, ?_⟩
  · exact (((hexact symbol "conn").1 horigins).1 _ _).mp
      (findFunction_of_singleton items_cyclicUnits (hrun symbol hsymbol))
  · have hnone := ((hexact "walk" "conn").1 horigins).2.mp (by
      rw [findFunction, findDie?, Listing.findSomeM?_of_forall _ hcomplete]
      · rfl
      · rw [items_cyclicUnits, List.forall_mem_singleton, hwalk]
        rfl)
    exact hnone cyclicUnit (by simp [items_cyclicUnits])
  · exact ((hexact "run" "conn").2.1 _ _).mp (findRecord_of_singleton items_cyclicUnits hconn)

end ProbeLowering.Dwarf
