import ProbeLowering.Dwarf.Facts
import ProbeLowering.Proofs.NamedValues
import ProbeLowering.Proofs.TypeChains

/-!
# Placement of parameters

The parameters below the entry of a function are read one by one, and reading one does not
depend on the others.  What depends on those before it is its slot, and the name of a
parameter that brings none.  So the arguments of a function are the slots of its parameters,
collected under their names (`argumentsOf_ok_iff`).
-/

namespace ProbeLowering.Dwarf

open DebugInfo (LookupError ArgInfo)

structure Parameter where
  name? : Option String
  type : TypeDescription
  explicit? : Option Int
  deriving DecidableEq, Repr

namespace Parameter

def read (unit : CompilationUnit) (die : Die) : Except LookupError Parameter := do
  let name? ← decoded (inheritedText? unit die AttrName.name)
  let type ← TypeDescription.ofReference unit (← decoded (inheritedAttr? unit die AttrName.type))
  let explicit? ← decoded (frameOffset? unit.firstOperation? die)
  pure ⟨name?, type, explicit?⟩

def slot (p : Parameter) (layout : StackLayout) : ArgInfo :=
  ⟨(layout.place (toSigned64 p.type.byteSize) p.explicit?).1, p.type.kind, p.type.typeName⟩

def behind (layout : StackLayout) (p : Parameter) : StackLayout :=
  (layout.place (toSigned64 p.type.byteSize) p.explicit?).2

def slots : StackLayout → List Parameter → List (Option String × ArgInfo)
  | _, [] => []
  | layout, p :: rest => (p.name?, p.slot layout) :: slots (behind layout p) rest

def slotOf (ps : List Parameter) (i : Fin ps.length) : ArgInfo :=
  (ps.get i).slot ((ps.take i).foldl behind {})

theorem read_ok {unit : CompilationUnit} {die : Die} {p : Parameter} (h : read unit die = .ok p) :
    inheritedText? unit die AttrName.name = .ok p.name? ∧
      (∃ reference?, inheritedAttr? unit die AttrName.type = .ok reference? ∧
        TypeDescription.ofReference unit reference? = .ok p.type) ∧
      frameOffset? unit.firstOperation? die = .ok p.explicit? := by
  obtain ⟨name?, hname, h⟩ := exists_ok_of_bind h
  obtain ⟨reference?, hreference, h⟩ := exists_ok_of_bind h
  obtain ⟨type, htype, h⟩ := exists_ok_of_bind h
  obtain ⟨explicit?, hexplicit, h⟩ := exists_ok_of_bind h
  cases h
  exact ⟨decoded_ok.mp hname, ⟨reference?, decoded_ok.mp hreference, htype⟩,
    decoded_ok.mp hexplicit⟩

theorem length_slots (layout : StackLayout) (ps : List Parameter) :
    (slots layout ps).length = ps.length := by
  induction ps generalizing layout with
  | nil => rfl
  | cons p rest ih => simp [slots, ih]

theorem getElem_slots {layout : StackLayout} {ps : List Parameter} {i : Nat} (hi : i < ps.length)
    (hi' : i < (slots layout ps).length) :
    (slots layout ps)[i] = (ps[i].name?, ps[i].slot ((ps.take i).foldl behind layout)) := by
  induction ps generalizing layout i with
  | nil => cases hi
  | cons p rest ih =>
      cases i with
      | zero => rfl
      | succ i => exact ih (Nat.lt_of_succ_lt_succ hi) (Nat.lt_of_succ_lt_succ hi')

end Parameter

def parameterEntries (unit : CompilationUnit) (function : Die) : List Die :=
  (unit.childrenAt function.offset).items.filter (·.tag == Tag.formalParameter)

/-- All entries below that of the function can be decoded, and these are its parameters. -/
structure HasParameters (unit : CompilationUnit) (function : Die) (ps : List Parameter) : Prop where
  complete : (unit.childrenAt function.offset).fault = none
  read : List.Forall₂ (fun die p => Parameter.read unit die = .ok p)
    (parameterEntries unit function) ps

theorem HasParameters.unique {unit : CompilationUnit} {function : Die} {ps ps' : List Parameter}
    (h : HasParameters unit function ps) (h' : HasParameters unit function ps') : ps = ps' :=
  List.right_unique_forall₂' (fun _ _ _ hp hp' => Except.ok.inj (hp.symm.trans hp')) h.read h'.read

namespace Placement

def put (placement : Placement) (p : Parameter) : Placement :=
  ⟨placement.args.insert (nameAt placement.args.size p.name?) (p.slot placement.layout),
    p.behind placement.layout⟩

variable {unit : CompilationUnit} {placement : Placement} {die : Die} {dies : List Die}

theorem add_eq : placement.add unit die =
    if die.tag = Tag.formalParameter then (Parameter.read unit die).map placement.put
    else .ok placement := by
  unfold add
  by_cases htag : die.tag = Tag.formalParameter
  · rw [if_neg (not_not_intro htag), if_pos htag, Parameter.read]
    rcases decoded (inheritedText? unit die AttrName.name) with _ | name?
    · rfl
    rcases decoded (inheritedAttr? unit die AttrName.type) with _ | reference?
    · rfl
    simp only [ok_bind]
    rcases TypeDescription.ofReference unit reference? with _ | type
    · rfl
    rcases decoded (frameOffset? unit.firstOperation? die) with _ | explicit?
    · rfl
    rfl
  · rw [if_pos htag, if_neg htag]
    rfl

/-- By induction on the entries: the parameters among them are placed in order. -/
theorem foldlM_add_ok_iff {placed : Placement} :
    dies.foldlM (add unit) placement = .ok placed ↔
      ∃ ps, List.Forall₂ (fun die p => Parameter.read unit die = .ok p)
        (dies.filter (·.tag == Tag.formalParameter)) ps ∧ ps.foldl put placement = placed := by
  induction dies generalizing placement with
  | nil => simp
  | cons die rest ih =>
      rw [List.foldlM_cons, add_eq]
      by_cases htag : die.tag = Tag.formalParameter
      · have hfilter : (die :: rest).filter (·.tag == Tag.formalParameter) =
            die :: rest.filter (·.tag == Tag.formalParameter) := by simp [htag]
        rw [if_pos htag, hfilter]
        constructor
        · intro h
          obtain ⟨next, hnext, h⟩ := exists_ok_of_bind h
          obtain ⟨ps, hps, hplaced⟩ := ih.mp h
          cases hread : Parameter.read unit die with
          | error e => simp [hread, Except.map] at hnext
          | ok p =>
              rw [hread] at hnext
              cases hnext
              exact ⟨p :: ps, .cons hread hps, hplaced⟩
        · rintro ⟨_, _ | ⟨hread, hps⟩, hplaced⟩
          rw [hread]
          exact ih.mpr ⟨_, hps, hplaced⟩
      · have hfilter : (die :: rest).filter (·.tag == Tag.formalParameter) =
            rest.filter (·.tag == Tag.formalParameter) := by simp [htag]
        rw [if_neg htag, hfilter]
        exact ih

theorem args_foldl_put (ps : List Parameter) (placement : Placement) :
    (ps.foldl put placement).args =
      placement.args.collect (Parameter.slots placement.layout ps) := by
  induction ps generalizing placement with
  | nil => rfl
  | cons p rest ih =>
      rw [List.foldl_cons, ih]
      rfl

end Placement

theorem Listing.foldFacts_ok_iff {α β : Type} {f : β → α → Except LookupError β} {start last : β}
    {l : Listing α} :
    l.foldFacts f start = .ok last ↔ l.fault = none ∧ l.items.foldlM f start = .ok last := by
  unfold foldFacts
  cases l.items.foldlM f start with
  | error e => simp
  | ok last => cases l.fault <;> simp [decoded, Except.mapError]

section Arguments

variable {units : Listing CompilationUnit} {symbol : String} {args : NameMap ArgInfo}
  {unit : CompilationUnit} {function : Die} {ps : List Parameter}

theorem argumentsOf_ok_iff :
    argumentsOf units symbol = .ok args ↔
      ∃ unit function ps, findFunction units symbol = .ok (unit, function) ∧
        HasParameters unit function ps ∧ NameMap.empty.collect (Parameter.slots {} ps) = args := by
  constructor
  · intro h
    obtain ⟨⟨unit, function⟩, hfunction, h⟩ := exists_ok_of_bind h
    obtain ⟨placed, hplaced, h⟩ := exists_ok_of_bind h
    cases h
    obtain ⟨hcomplete, hitems⟩ := Listing.foldFacts_ok_iff.mp hplaced
    obtain ⟨ps, hread, rfl⟩ := Placement.foldlM_add_ok_iff.mp hitems
    exact ⟨unit, function, ps, hfunction, ⟨hcomplete, hread⟩, (Placement.args_foldl_put ps {}).symm⟩
  · rintro ⟨unit, function, ps, hfunction, ⟨hcomplete, hread⟩, rfl⟩
    have hitems : (unit.childrenAt function.offset).items.foldlM (Placement.add unit) {} =
        .ok (ps.foldl Placement.put {}) := Placement.foldlM_add_ok_iff.mpr ⟨ps, hread, rfl⟩
    rw [argumentsOf, hfunction]
    simp only [ok_bind, Listing.foldFacts_ok_iff.mpr ⟨hcomplete, hitems⟩]
    exact congrArg Except.ok (Placement.args_foldl_put ps {})

end Arguments

end ProbeLowering.Dwarf
