import ProbeLowering.Proofs.RecordLookup

/-!
# Parameters of a function

The slots of the parameters are collected under their names.  A parameter without a name is
named after the number of slots that are there by then, so all parameters keep their slots
unless another one bears such a name (`parameters_kept`).
-/

namespace ProbeLowering.Dwarf

open DebugInfo (ArgInfo)

section Arguments

variable {units : Listing CompilationUnit} {symbol : String} {args : NameMap ArgInfo}
  {ps : List Parameter}

/-- A parameter bears the name that another one without a name gets at its position. -/
def NamesClash (ps : List Parameter) : Prop :=
  ∃ i j : Fin ps.length, (ps.get i).name? = none ∧ (ps.get j).name? = some (nameAt i none)

def NamesDistinct (ps : List Parameter) : Prop :=
  ∀ i j : Fin ps.length, (ps.get i).name?.isSome → (ps.get i).name? = (ps.get j).name? → i = j

instance : Decidable (NamesClash ps) :=
  inferInstanceAs (Decidable (∃ _ _ : Fin ps.length, _ ∧ _))

instance : Decidable (NamesDistinct ps) :=
  inferInstanceAs (Decidable (∀ _ _ : Fin ps.length, _ → _ → _))

theorem NamesDistinct.eq (h : NamesDistinct ps) {i j : Fin ps.length} {name : String}
    (hi : (ps.get i).name? = some name) (hj : (ps.get j).name? = some name) : i = j :=
  h i j (by rw [hi]; rfl) (hi.trans hj.symm)

theorem nameAt_injective_iff (hdistinct : NamesDistinct ps) :
    (∀ i j : Fin ps.length, nameAt i (ps.get i).name? = nameAt j (ps.get j).name? → i = j) ↔
      ¬ NamesClash ps := by
  constructor
  · rintro hinjective ⟨i, j, hnone, hsome⟩
    cases hinjective i j (by rw [hnone, hsome]; rfl)
    cases hnone.symm.trans hsome
  · intro hclash i j hsame
    cases hi : (ps.get i).name? with
    | none =>
        rw [hi] at hsame
        cases hj : (ps.get j).name? with
        | none =>
            rw [hj] at hsame
            exact Fin.ext (nameAt_none_injective hsame)
        | some name =>
            rw [hj] at hsame
            exact absurd ⟨i, j, hi, hj.trans (congrArg some hsame.symm)⟩ hclash
    | some name =>
        rw [hi] at hsame
        cases hj : (ps.get j).name? with
        | none =>
            rw [hj] at hsame
            exact absurd ⟨j, i, hj, hi.trans (congrArg some hsame)⟩ hclash
        | some other =>
            rw [hj] at hsame
            exact hdistinct.eq hi (hj.trans (congrArg some hsame.symm))

theorem namesFrom_slots (ps : List Parameter) :
    NameMap.namesFrom 0 (Parameter.slots {} ps) =
      List.ofFn fun i : Fin ps.length => nameAt i (ps.get i).name? := by
  refine List.ext_getElem ?_ fun i hi hi' => ?_
  · rw [NameMap.length_namesFrom, Parameter.length_slots, List.length_ofFn]
  · rw [NameMap.length_namesFrom] at hi
    have hps : i < ps.length := Parameter.length_slots {} ps ▸ hi
    rw [NameMap.getElem_namesFrom hi, Parameter.getElem_slots hps, Nat.zero_add,
      List.getElem_ofFn]
    rfl

theorem size_collect_slots (hdistinct : NamesDistinct ps) :
    ((NameMap.empty : NameMap ArgInfo).collect (Parameter.slots {} ps)).size = ps.length ↔
      ¬ NamesClash ps := by
  have hsize := NameMap.size_collect_eq_iff .empty (Parameter.slots {} ps)
  have hempty : (NameMap.empty : NameMap ArgInfo).size = 0 := rfl
  rw [hempty, Nat.zero_add, Parameter.length_slots, namesFrom_slots, List.nodup_ofFn] at hsize
  rw [hsize, ← nameAt_injective_iff hdistinct]
  exact and_iff_left fun _ _ => rfl

/--
Where no two parameters bear the same name, none is lost unless one bears the name that
another one without a name gets at its position.  All are then reported under their names
with their own slots.  Otherwise too the slot that is reported for a name is that of the
parameter, or that of a later one without a name.
-/
theorem parameters_kept (h : argumentsOf units symbol = .ok args) :
    ∃ unit function ps, findFunction units symbol = .ok (unit, function) ∧
      HasParameters unit function ps ∧
      (NamesDistinct ps →
        (args.size = (parameterEntries unit function).length ↔ ¬ NamesClash ps) ∧
        (¬ NamesClash ps → ∀ i : Fin ps.length,
          args.get? (nameAt i (ps.get i).name?) = some (Parameter.slotOf ps i)) ∧
        ∀ (i : Fin ps.length) (name : String), (ps.get i).name? = some name →
          ∃ j : Fin ps.length, i ≤ j ∧ (j = i ∨ (ps.get j).name? = none) ∧
            args.get? name = some (Parameter.slotOf ps j)) := by
  obtain ⟨unit, function, ps, hfunction, hparameters, rfl⟩ := argumentsOf_ok_iff.mp h
  refine ⟨unit, function, ps, hfunction, hparameters, fun hdistinct => ?_⟩
  have hslot : ∀ (i : Nat) (hi : i < ps.length) (hi' : i < (Parameter.slots {} ps).length),
      (Parameter.slots {} ps)[i] = (ps[i].name?, Parameter.slotOf ps ⟨i, hi⟩) :=
    fun i hi hi' => Parameter.getElem_slots hi hi'
  have hlength : (Parameter.slots {} ps).length = ps.length := Parameter.length_slots {} ps
  rw [hparameters.read.length_eq]
  refine ⟨size_collect_slots hdistinct, fun hclash i => ?_, fun i name hname => ?_⟩
  · have hsize : ((NameMap.empty : NameMap ArgInfo).collect (Parameter.slots {} ps)).size =
        (NameMap.empty : NameMap ArgInfo).size + (Parameter.slots {} ps).length := by
      rw [(size_collect_slots hdistinct).mpr hclash, hlength]
      exact (Nat.zero_add _).symm
    have hi : i.val < (Parameter.slots {} ps).length := i.isLt.trans_eq hlength.symm
    have hget := NameMap.get?_collect hsize hi
    rw [hslot i i.isLt hi] at hget
    simpa [NameMap.size, NameMap.empty] using hget
  · have hi : i.val < (Parameter.slots {} ps).length := i.isLt.trans_eq hlength.symm
    obtain ⟨j, hj, hle, hbrings, hget⟩ := NameMap.get?_collect_named (m := .empty) hi
      (by rw [hslot i i.isLt hi]; exact hname) fun j hj hother => by
        rw [hslot j (hlength ▸ hj) hj] at hother
        exact congrArg Fin.val (hdistinct.eq (i := ⟨j, hlength ▸ hj⟩) hother hname)
    rw [hslot j (hlength ▸ hj) hj] at hbrings hget
    exact ⟨⟨j, hlength ▸ hj⟩, hle, hbrings.imp_left Fin.ext, hget⟩

end Arguments

/-! ## A parameter that is lost -/

/-- Unit with functions `kept` and `lost`, whose second parameters have no names. -/
def unnamedBytes : List UInt8 :=
  [79, 0, 0, 0, 4, 0, 0, 0, 0, 0, 8] ++
    [1] ++
    [2, 105, 110, 116, 0, 4] ++
    [2, 108, 111, 110, 103, 0, 8] ++
    [3, 107, 101, 112, 116, 0, 0, 16, 0, 0, 0, 0, 0, 0] ++
    [4, 97, 0, 12, 0, 0, 0] ++ [5, 18, 0, 0, 0] ++ [0] ++
    [3, 108, 111, 115, 116, 0, 0, 32, 0, 0, 0, 0, 0, 0] ++
    [4, 97, 114, 103, 49, 0, 12, 0, 0, 0] ++ [5, 18, 0, 0, 0] ++ [0] ++ [0]

def unnamedAbbreviations : List UInt8 :=
  [1, 0x11, 1, 0, 0] ++
    [2, 0x24, 0, 0x03, 0x08, 0x0b, 0x0b, 0, 0] ++
    [3, 0x2e, 1, 0x03, 0x08, 0x11, 0x01, 0, 0] ++
    [4, 0x05, 0, 0x03, 0x08, 0x49, 0x13, 0, 0] ++
    [5, 0x05, 0, 0x49, 0x13, 0, 0] ++ [0]

def unnamedUnits : Listing CompilationUnit :=
  Sections.units {
    order := .little, info := ⟨unnamedBytes.toArray⟩, abbrev_ := ⟨unnamedAbbreviations.toArray⟩ }

theorem length_unnamedUnits : unnamedUnits.items.length = 1 := by decide +kernel

def unnamedUnit : CompilationUnit := unnamedUnits.only length_unnamedUnits

theorem length_entries_unnamedUnit : unnamedUnit.entries.items.length = 9 := by decide +kernel

def unnamedEntry (k : Fin 9) : Die :=
  unnamedUnit.entries.items.get (k.cast length_entries_unnamedUnit.symm)

def unnamedParameters (name : String) : List Parameter :=
  [⟨some name, ⟨.base, "int", 4⟩, none⟩, ⟨none, ⟨.base, "long", 8⟩, none⟩]

theorem findFunction_unnamed :
    findFunction unnamedUnits "kept" = .ok (unnamedUnit, unnamedEntry 3) ∧
      findFunction unnamedUnits "lost" = .ok (unnamedUnit, unnamedEntry 6) :=
  have hunits := Listing.items_eq_only length_unnamedUnits
  ⟨findFunction_of_singleton hunits (by decide +kernel),
    findFunction_of_singleton hunits (by decide +kernel)⟩

theorem hasParameters_of_entries {f i j : Fin 9} {name : String}
    (h : (unnamedUnit.childrenAt (unnamedEntry f).offset).fault = none ∧
      parameterEntries unnamedUnit (unnamedEntry f) = [unnamedEntry i, unnamedEntry j] ∧
      Parameter.read unnamedUnit (unnamedEntry i) = .ok ⟨some name, ⟨.base, "int", 4⟩, none⟩ ∧
      Parameter.read unnamedUnit (unnamedEntry j) = .ok ⟨none, ⟨.base, "long", 8⟩, none⟩) :
    HasParameters unnamedUnit (unnamedEntry f) (unnamedParameters name) := by
  obtain ⟨hcomplete, hentries, hi, hj⟩ := h
  refine ⟨hcomplete, ?_⟩
  rw [hentries]
  exact .cons hi (.cons hj .nil)

theorem hasParameters_kept :
    HasParameters unnamedUnit (unnamedEntry 3) (unnamedParameters "a") :=
  hasParameters_of_entries (i := 4) (j := 5) (by decide +kernel)

theorem hasParameters_lost :
    HasParameters unnamedUnit (unnamedEntry 6) (unnamedParameters "arg1") :=
  hasParameters_of_entries (i := 7) (j := 8) (by decide +kernel)

theorem parameters_kept_unnamed :
    ∃ args, argumentsOf unnamedUnits "kept" = .ok args ∧ NamesDistinct (unnamedParameters "a") ∧
      ¬ NamesClash (unnamedParameters "a") ∧ args.size = 2 ∧
      args.get? "a" = some ⟨0, .base, "int"⟩ ∧ args.get? "arg1" = some ⟨8, .base, "long"⟩ := by
  have hargs := argumentsOf_ok_iff.mpr
    ⟨_, _, _, findFunction_unnamed.1, hasParameters_kept, rfl⟩
  have hdistinct : NamesDistinct (unnamedParameters "a") := by decide +kernel
  have hclash : ¬ NamesClash (unnamedParameters "a") := by decide +kernel
  obtain ⟨unit, function, ps, hfunction, hparameters, hkept⟩ := parameters_kept hargs
  obtain ⟨rfl, rfl⟩ := Prod.mk.inj (Except.ok.inj (findFunction_unnamed.1.symm.trans hfunction))
  obtain rfl := hasParameters_kept.unique hparameters
  obtain ⟨hsize, hslots, -⟩ := hkept hdistinct
  have hreported : ∀ (i : Fin 2) (name : String) (info : ArgInfo),
      nameAt i ((unnamedParameters "a").get i).name? = name →
      Parameter.slotOf (unnamedParameters "a") i = info →
      (NameMap.empty.collect (Parameter.slots {} (unnamedParameters "a"))).get? name =
        some info := by
    rintro i _ _ rfl rfl
    exact hslots hclash i
  exact ⟨_, hargs, hdistinct, hclash, (hsize.mpr hclash).trans hasParameters_kept.read.length_eq,
    hreported 0 _ _ (by decide +kernel) (by decide +kernel),
    hreported 1 _ _ (by decide +kernel) (by decide +kernel)⟩

theorem parameter_lost :
    ∃ args, argumentsOf unnamedUnits "lost" = .ok args ∧
      findFunction unnamedUnits "lost" = .ok (unnamedUnit, unnamedEntry 6) ∧
      HasParameters unnamedUnit (unnamedEntry 6) (unnamedParameters "arg1") ∧
      NamesDistinct (unnamedParameters "arg1") ∧
      (parameterEntries unnamedUnit (unnamedEntry 6)).length = 2 ∧ args.size = 1 ∧
      Parameter.slotOf (unnamedParameters "arg1") ⟨0, by decide⟩ = ⟨0, .base, "int"⟩ ∧
      args.get? "arg1" = some ⟨8, .base, "long"⟩ :=
  ⟨_, argumentsOf_ok_iff.mpr ⟨_, _, _, findFunction_unnamed.2, hasParameters_lost, rfl⟩,
    findFunction_unnamed.2, hasParameters_lost, by decide +kernel,
    hasParameters_lost.read.length_eq, by decide +kernel, rfl, by decide +kernel⟩

end ProbeLowering.Dwarf
