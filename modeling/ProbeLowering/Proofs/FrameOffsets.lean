import ProbeLowering.Proofs.Operations
import ProbeLowering.Proofs.Parameters

/-!
# Offsets of parameters

A parameter may give its offset from the frame base, by an expression that begins with one.
It is then placed there; all others are placed in the free space behind the parameters
before them.  Operations after the first do not count: where the expression goes on, the
result of its first operation is still taken for the place of the parameter
(`frame_offsets`).
-/

namespace ProbeLowering.Dwarf

open DebugInfo (ArgInfo)

def LocatedBy (die : Die) (bytes : ByteArray) : Prop :=
  ∃ value, die.attr? AttrName.location = .ok (some value) ∧ value.expression? = some bytes

/-- The location begins with this offset from the frame base, whatever follows it. -/
def GivesOffset (e : Encoding) (order : ByteOrder) (die : Die) (n : Int) : Prop :=
  ∃ bytes, LocatedBy die bytes ∧ Begins e order bytes (.frameOffset n)

/-- Where the parameter is placed if it gives no offset: in free space, aligned to its size. -/
def Parameter.freeOffset (ps : List Parameter) (i : Fin ps.length) : Int :=
  StackLayout.alignUp ((ps.take i).foldl Parameter.behind {}).next
    (StackLayout.alignment (toSigned64 (ps.get i).type.byteSize))

section Locations

variable {e : Encoding} {order : ByteOrder} {die : Die} {explicit? : Option Int}

theorem LocatedBy.unique {bytes bytes' : ByteArray} (h : LocatedBy die bytes)
    (h' : LocatedBy die bytes') : bytes = bytes' := by
  obtain ⟨value, hvalue, hbytes⟩ := h
  obtain ⟨value', hvalue', hbytes'⟩ := h'
  cases hvalue.symm.trans hvalue'
  exact Option.some.inj (hbytes.symm.trans hbytes')

theorem frameOffset?_spec (h : frameOffset? (Operation.first? e order) die = .ok explicit?)
    (n : Int) : explicit? = some n ↔ GivesOffset e order die n := by
  obtain ⟨location?, hlocation, h⟩ := exists_ok_of_bind h
  have hlocated : ∀ bytes, LocatedBy die bytes ↔
      location?.bind AttrValue.expression? = some bytes := by
    intro bytes
    rw [Option.bind_eq_some_iff]
    refine exists_congr fun value => and_congr_left fun _ => ?_
    rw [hlocation, Except.ok.injEq]
  cases hexpression : location?.bind AttrValue.expression? with
  | none =>
      rw [hexpression] at h
      cases h
      refine iff_of_false nofun ?_
      rintro ⟨bytes, hbytes, -⟩
      cases hexpression.symm.trans ((hlocated bytes).mp hbytes)
  | some bytes =>
      rw [hexpression] at h
      have hbytes := (hlocated bytes).mpr hexpression
      obtain ⟨op?, hop, h⟩ := exists_ok_of_bind h
      have hgives : GivesOffset e order die n ↔ op? = some (.frameOffset n) := by
        rw [← Except.ok.injEq, ← hop, first?_eq_some_iff]
        refine ⟨fun ⟨other, hother, hbegins⟩ => ?_, fun hbegins => ⟨bytes, hbytes, hbegins⟩⟩
        rwa [hbytes.unique hother]
      rw [hgives]
      rcases op? with _ | (offset | _ | _) <;> cases h <;> simp

theorem Parameter.offset_slotOf (ps : List Parameter) (i : Fin ps.length) :
    (slotOf ps i).offset = (ps.get i).explicit?.getD (freeOffset ps i) :=
  rfl

end Locations

section Parameters

variable {s : Sections} {symbol : String} {args : NameMap ArgInfo} {unit : CompilationUnit}
  {function : Die} {ps : List Parameter}

theorem HasParameters.exists_entry (h : HasParameters unit function ps) (i : Fin ps.length) :
    ∃ die, (parameterEntries unit function)[i.val]? = some die ∧
      Parameter.read unit die = .ok (ps.get i) := by
  have hi : i.val < (parameterEntries unit function).length := i.isLt.trans_eq h.read.length_eq.symm
  exact ⟨_, List.getElem?_eq_getElem hi, h.read.get hi i.isLt⟩

theorem exists_slotOf_of_get? {name : String} {info : ArgInfo}
    (h : (NameMap.empty.collect (Parameter.slots {} ps)).get? name = some info) :
    ∃ i : Fin ps.length, ((ps.get i).name? = some name ∨ (ps.get i).name? = none) ∧
      info = Parameter.slotOf ps i := by
  rcases NameMap.get?_collect_or .empty (Parameter.slots {} ps) name with
    hget | ⟨j, hj, hname, hget⟩
  · cases h.symm.trans hget
  · have hps : j < ps.length := Parameter.length_slots {} ps ▸ hj
    rw [Parameter.getElem_slots hps hj] at hname hget
    exact ⟨⟨j, hps⟩, hname, Option.some.inj (h.symm.trans hget)⟩

/--
A parameter is placed at an offset from the frame base exactly if its location begins with
this offset.  The location may consist of it alone or go on; any other parameter is placed
in free space.  Arguments are reported where their parameters are placed.
-/
theorem frame_offsets (h : argumentsOf s.units symbol = .ok args) :
    ∃ header unit function ps, s.buildUnit header = .ok unit ∧
      findFunction s.units symbol = .ok (unit, function) ∧ HasParameters unit function ps ∧
      (∀ i : Fin ps.length, ∃ die, (parameterEntries unit function)[i.val]? = some die ∧
        (∀ n, (ps.get i).explicit? = some n ↔ GivesOffset header.encoding s.order die n) ∧
        (∀ bytes n ops, LocatedBy die bytes →
          Consists header.encoding s.order bytes (.frameOffset n :: ops) →
          (Parameter.slotOf ps i).offset = n) ∧
        ((∀ n, ¬ GivesOffset header.encoding s.order die n) →
          (Parameter.slotOf ps i).offset = Parameter.freeOffset ps i)) ∧
      ∀ name info, args.get? name = some info →
        ∃ i : Fin ps.length, ((ps.get i).name? = some name ∨ (ps.get i).name? = none) ∧
          info = Parameter.slotOf ps i := by
  obtain ⟨unit, function, ps, hfunction, hparameters, rfl⟩ := argumentsOf_ok_iff.mp h
  obtain ⟨header, hheader⟩ := exists_header (mem_of_findFunction hfunction)
  refine ⟨header, unit, function, ps, hheader, hfunction, hparameters, fun i => ?_,
    fun name info => exists_slotOf_of_get?⟩
  obtain ⟨die, hdie, hread⟩ := hparameters.exists_entry i
  obtain ⟨-, -, hexplicit⟩ := Parameter.read_ok hread
  rw [firstOperation?_of_buildUnit hheader] at hexplicit
  have hgives := frameOffset?_spec hexplicit
  refine ⟨die, hdie, hgives, fun bytes n ops hlocated hops => ?_, fun hnone => ?_⟩
  · have hoffset := (hgives n).mpr ⟨bytes, hlocated, hops.begins⟩
    rw [Parameter.offset_slotOf, hoffset]
    rfl
  · have hoffset : (ps.get i).explicit? = none :=
      Option.eq_none_iff_forall_ne_some.mpr fun n hn => hnone n ((hgives n).mp hn)
    rw [Parameter.offset_slotOf, hoffset]
    rfl

end Parameters

/-! ## A location that goes on -/

/--
Unit with a function `f` of two integers: `p` is at -16 from the frame base, and `q` where
the address at -16 leads.
-/
def frameSections : Sections where
  order := .little
  info := ⟨([48, 0, 0, 0, 4, 0, 0, 0, 0, 0, 8] ++
    [1] ++
    [2, 105, 110, 116, 0, 4] ++
    [3, 102, 0, 0, 16, 0, 0, 0, 0, 0, 0] ++
    [4, 112, 0, 12, 0, 0, 0, 2, 0x91, 0x70] ++
    [4, 113, 0, 12, 0, 0, 0, 3, 0x91, 0x70, 0x06] ++ [0] ++ [0] : List UInt8).toArray⟩
  abbrev_ := ⟨([1, 0x11, 1, 0, 0] ++
    [2, 0x24, 0, 0x03, 0x08, 0x0b, 0x0b, 0, 0] ++
    [3, 0x2e, 1, 0x03, 0x08, 0x11, 0x01, 0, 0] ++
    [4, 0x05, 0, 0x03, 0x08, 0x49, 0x13, 0x02, 0x18, 0, 0] ++ [0] : List UInt8).toArray⟩

theorem length_frameUnits : frameSections.units.items.length = 1 := by decide +kernel

def frameUnit : CompilationUnit := frameSections.units.only length_frameUnits

theorem length_entries_frameUnit : frameUnit.entries.items.length = 5 := by decide +kernel

def frameEntry (k : Fin 5) : Die :=
  frameUnit.entries.items.get (k.cast length_entries_frameUnit.symm)

def frameParameters : List Parameter :=
  [⟨some "p", ⟨.base, "int", 4⟩, some (-16)⟩, ⟨some "q", ⟨.base, "int", 4⟩, some (-16)⟩]

theorem findFunction_frame :
    findFunction frameSections.units "f" = .ok (frameUnit, frameEntry 2) :=
  findFunction_of_singleton (Listing.items_eq_only length_frameUnits) (by decide +kernel)

theorem parameterEntries_frame :
    parameterEntries frameUnit (frameEntry 2) = [frameEntry 3, frameEntry 4] := by
  decide +kernel

theorem hasParameters_frame : HasParameters frameUnit (frameEntry 2) frameParameters := by
  have hentries : (frameUnit.childrenAt (frameEntry 2).offset).fault = none ∧
      Parameter.read frameUnit (frameEntry 3) = .ok ⟨some "p", ⟨.base, "int", 4⟩, some (-16)⟩ ∧
      Parameter.read frameUnit (frameEntry 4) = .ok ⟨some "q", ⟨.base, "int", 4⟩, some (-16)⟩ := by
    decide +kernel
  obtain ⟨hcomplete, hp, hq⟩ := hentries
  refine ⟨hcomplete, ?_⟩
  rw [parameterEntries_frame]
  exact .cons hp (.cons hq .nil)

theorem arguments_frame : argumentsOf frameSections.units "f" =
    .ok (NameMap.empty.collect (Parameter.slots {} frameParameters)) :=
  argumentsOf_ok_iff.mpr ⟨_, _, _, findFunction_frame, hasParameters_frame, rfl⟩

theorem locatedBy_frame :
    LocatedBy (frameEntry 3) ⟨#[0x91, 0x70]⟩ ∧ LocatedBy (frameEntry 4) ⟨#[0x91, 0x70, 0x06]⟩ := by
  have hlocations :
      (frameEntry 3).attr? AttrName.location = .ok (some (.expression ⟨#[0x91, 0x70]⟩)) ∧
      (frameEntry 4).attr? AttrName.location = .ok (some (.expression ⟨#[0x91, 0x70, 0x06]⟩)) := by
    decide +kernel
  exact ⟨⟨_, hlocations.1, rfl⟩, _, hlocations.2, rfl⟩

theorem consists_frame (e : Encoding) :
    Consists e .little ⟨#[0x91, 0x70]⟩ [.frameOffset (-16)] ∧
      Consists e .little ⟨#[0x91, 0x70, 0x06]⟩ [.frameOffset (-16), .other 0x06] :=
  ⟨.next rfl rfl (.done rfl), .next rfl rfl (.next rfl rfl (.done rfl))⟩

theorem frame_offsets_of_f :
    ∃ args, argumentsOf frameSections.units "f" = .ok args ∧
      args.get? "p" = some ⟨-16, .base, "int"⟩ ∧
      ∃ header, frameSections.buildUnit header = .ok frameUnit ∧
        GivesOffset header.encoding .little (frameEntry 3) (-16) := by
  obtain ⟨header, unit, function, ps, hheader, hfunction, hparameters, hplaces, hreported⟩ :=
    frame_offsets arguments_frame
  obtain ⟨rfl, rfl⟩ := Prod.mk.inj (Except.ok.inj (findFunction_frame.symm.trans hfunction))
  obtain rfl := hasParameters_frame.unique hparameters
  obtain ⟨die, hdie, hgives, -⟩ := hplaces ⟨0, by decide⟩
  rw [parameterEntries_frame] at hdie
  obtain rfl : frameEntry 3 = die := Option.some.inj hdie
  exact ⟨_, arguments_frame, by decide +kernel, header, hheader, (hgives (-16)).mp rfl⟩

/--
The location of `q` does not consist of an offset from the frame base: the address there
leads to `q`.  It is still reported at this offset, and not in free space.
-/
theorem offset_of_longer_location :
    ∃ args, argumentsOf frameSections.units "f" = .ok args ∧
      findFunction frameSections.units "f" = .ok (frameUnit, frameEntry 2) ∧
      parameterEntries frameUnit (frameEntry 2) = [frameEntry 3, frameEntry 4] ∧
      ownText? frameUnit (frameEntry 4) AttrName.name = .ok (some "q") ∧
      (∀ e bytes n, LocatedBy (frameEntry 4) bytes →
        ¬ Consists e .little bytes [.frameOffset n]) ∧
      args.get? "q" = some ⟨-16, .base, "int"⟩ ∧
      Parameter.freeOffset frameParameters ⟨1, by decide⟩ = 0 := by
  refine ⟨_, arguments_frame, findFunction_frame, parameterEntries_frame, by decide +kernel, ?_,
    by decide +kernel, by decide +kernel⟩
  intro e bytes n hlocated hops
  rw [hlocated.unique locatedBy_frame.2] at hops
  cases hops.unique (consists_frame e).2

end ProbeLowering.Dwarf
