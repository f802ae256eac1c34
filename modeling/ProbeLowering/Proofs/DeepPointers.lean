import ProbeLowering.Proofs.AskedNames
import ProbeLowering.Proofs.FieldLookups
import ProbeLowering.Proofs.Placeholders
import ProbeLowering.Proofs.RecordLookup
import ProbeLowering.Proofs.RecordOutcomes
import ProbeLowering.Proofs.TypeChains

/-!
# Pointers to pointers

A pointer is read through once: what it points to is traced, or has a member looked up.  If
it points to another pointer, then the name of its type ends with a star, which no scalar
type does, and so it is not traced.  It has no members either, unless a record has such a
name (`deep_pointers`).
-/

namespace ProbeLowering

open DebugInfo
open Logical (Argument ReturnValue Part)
open Physical (Variable)

theorem Language.ne_star_of_baseType? {language : Language} {name : String}
    {type : ScalarType} (h : language.baseType? name = some type) :
    name.toList.getLast? ≠ some '*' := by
  have hgo : ∀ {name}, goBaseType? name = some type → name.toList.getLast? ≠ some '*' := by
    intro name h
    unfold goBaseType? at h
    split at h <;> simp at h ⊢
  have hc : ∀ {name}, cBaseType? name = some type → name.toList.getLast? ≠ some '*' := by
    intro name h
    unfold cBaseType? at h
    split at h <;> simp at h ⊢
  cases language with
  | go => exact hgo h
  | c | cpp => exact hc h
  | unknown => cases h

theorem Language.baseType?_star (language : Language) (stem : String) :
    language.baseType? (stem ++ " *") = none := by
  rw [Option.eq_none_iff_forall_ne_some]
  intro type h
  exact Language.ne_star_of_baseType? h (by simp [List.getLast?_append])

theorem Setting.lowerResult_register {setting : Setting}
    (h : setting.language.returnsInRegister) (id : String) (fields : List String) :
    setting.lowerResult id 0 fields = lowerRegisterReturn setting id fields := by
  unfold lowerResult
  cases hlanguage : setting.language <;> simp_all [Language.returnsInRegister]

section Chains

variable {setting : Setting} {id : String} {root : ExprRoot}

theorem runFrom_bare (id : String) {root : ExprRoot} (hkind : root.kind = .pointer)
    (htype : setting.language.baseType? root.typeName = none) (s : Scope) :
    (s.symbols.contains (pointerName id []) ∧
      (lowerAccessChain setting id root []).runFrom s =
        (.error (.duplicateVariable (pointerName id [])), s)) ∨
    (s.symbols.contains (pointerName id []) = false ∧ ∃ v t, v.name = pointerName id [] ∧
      s.Declares t [v] ∧ (lowerAccessChain setting id root []).runFrom s =
        (.error (.unresolvedBaseType setting.language root.typeName), t)) := by
  have hchain : ∃ v : Variable, v.name = pointerName id [] ∧
      (lowerAccessChain setting id root []).runFrom s =
        match (Scope.addVariable v).runFrom s with
        | (.ok _, t) => (.error (.unresolvedBaseType setting.language root.typeName), t)
        | (.error e, t) => (.error e, t) := by
    refine ⟨.scalar ⟨pointerName id [], .voidPointer,
      .memory root.base.variableName (wrapInt64 (root.offset + root.base.adjustment))⟩, rfl, ?_⟩
    simp [lowerAccessChain, Walk.enterFields, Walk.readThrough, Walk.start, hkind, Walk.deref,
      resolveScalarType, htype, Step.runFrom_bind, Scope.addScalar, pointerName, AccessPath.push]
    rcases (Scope.addVariable _).runFrom s with ⟨_ | _, t⟩ <;> rfl
  obtain ⟨v, hname, hrun⟩ := hchain
  rw [hrun, ← hname]
  cases hadd : s.add v with
  | ok t =>
      have hadded : (Scope.addVariable v).runFrom s = (.ok (), t) := by
        simp [Scope.addVariable, Step.runFrom_update, hadd]
      have hdeclares := Scope.runFrom_addVariable_ok_iff.mp hadded
      rw [hadded]
      exact .inr ⟨Scope.exists_declares_singleton_iff.mp ⟨t, hdeclares⟩, v, t, rfl, hdeclares, rfl⟩
  | error e =>
      obtain ⟨hmem, rfl⟩ := Scope.add_error hadd
      have hrefused : (Scope.addVariable v).runFrom s =
          (.error (.duplicateVariable v.name), s) := by
        simp [Scope.addVariable, Step.runFrom_update, hadd]
      rw [hrefused]
      exact .inl ⟨SymbolTable.contains_iff.mpr hmem, rfl⟩

theorem exists_member_of_lowerAccessChain {fields : List String} {s t : Scope}
    (hfields : fields ≠ [])
    (h : (lowerAccessChain setting id root fields).runFrom s = (.ok (), t)) :
    ∃ field info, setting.facts.member root.typeName field = .ok info := by
  obtain ⟨infos, type, hmembers, -⟩ := lowerAccessChain_walked.mp h
  cases hmembers with
  | nil => exact absurd rfl hfields
  | cons found => exact ⟨_, _, found⟩

end Chains

namespace Dwarf

theorem defines_of_memberOf {units : Listing CompilationUnit} {name field : String}
    {info : MemberInfo} (h : memberOf units name field = .ok info) :
    ∃ unit ∈ units.items, ∃ record ∈ unit.entries.items, Defines name unit record := by
  obtain ⟨⟨unit, record⟩, hfound, -⟩ := exists_ok_of_bind h
  have hfirst := firstEntry_of_findRecord hfound
  exact ⟨unit, hfirst.1.mem, record, hfirst.2.mem, hfirst.2.holds⟩

def TakesName (unit : CompilationUnit) (before : List Die) (parameter : Die) (name : String) :
    Prop :=
  parameter.tag = Tag.formalParameter ∧ ∃ placement,
    before.foldlM (Placement.add unit) {} = .ok placement ∧
    placement.nameOf unit parameter = .ok name

/-- The parameter is the last one of the function that takes the name. -/
def IsArgument (units : Listing CompilationUnit) (symbol name : String)
    (unit : CompilationUnit) (parameter : Die) : Prop :=
  ∃ function before after, findFunction units symbol = .ok (unit, function) ∧
    (unit.childrenAt function.offset).items = before ++ parameter :: after ∧
    TakesName unit before parameter name ∧
    ∀ between later rest, after = between ++ later :: rest →
      ¬ TakesName unit (before ++ parameter :: between) later name

section Parameters

variable {units : Listing CompilationUnit} {symbol name : String} {unit : CompilationUnit}
  {parameter : Die} {info : ArgInfo}

theorem foldlM_concat {before : List Die} {placement placed : Placement}
    (hbefore : before.foldlM (Placement.add unit) {} = .ok placement)
    (hadd : placement.add unit parameter = .ok placed) :
    (before ++ [parameter]).foldlM (Placement.add unit) {} = .ok placed := by
  simp [List.foldlM_append, hbefore, hadd]

/-- By induction on the entries behind: the answer is replaced only under its own name. -/
theorem get?_of_foldlM {before after : List Die} {placement placed : Placement}
    (hbefore : before.foldlM (Placement.add unit) {} = .ok placement)
    (hafter : after.foldlM (Placement.add unit) placement = .ok placed)
    (hlast : ∀ between later rest, after = between ++ later :: rest →
      ¬ TakesName unit (before ++ between) later name) :
    placed.args.get? name = placement.args.get? name := by
  induction after generalizing before placement with
  | nil =>
      cases hafter
      rfl
  | cons later rest ih =>
      rw [List.foldlM_cons] at hafter
      obtain ⟨next, hnext, hafter⟩ := exists_ok_of_bind hafter
      rw [ih (foldlM_concat hbefore hnext) hafter fun between later' rest' heq => ?_]
      · by_cases htag : later.tag = Tag.formalParameter
        · obtain ⟨other, reference?, description, offset, hother, -, -, hargs⟩ :=
            Placement.add_ok htag hnext
          rw [hargs, NameMap.get?_insert_of_ne]
          rintro rfl
          exact hlast [] later rest rfl ⟨htag, placement, by simpa using hbefore, hother⟩
        · simp only [Placement.add, if_pos htag] at hnext
          cases hnext
          rfl
      · simpa using hlast (later :: between) later' rest' (by simp [heq])

theorem exists_description_of_isArgument {args : NameMap ArgInfo}
    (hargs : argumentsOf units symbol = .ok args)
    (h : IsArgument units symbol name unit parameter) :
    ∃ reference? description offset,
      inheritedAttr? unit parameter AttrName.type = .ok reference? ∧
      TypeDescription.ofReference unit reference? = .ok description ∧
      args.get? name = some ⟨offset, description.kind, description.typeName⟩ := by
  obtain ⟨function, before, after, hfunction, hitems, ⟨htag, placement, hbefore, hname⟩, hlast⟩ := h
  obtain ⟨found, hfound, hargs⟩ := exists_ok_of_bind hargs
  cases hfunction.symm.trans hfound
  obtain ⟨last, hplaced, hargs⟩ := exists_ok_of_bind hargs
  cases hargs
  have hresult := (Listing.foldFacts_ok_iff.mp hplaced).2
  rw [hitems, List.foldlM_append] at hresult
  obtain ⟨placement', hbefore', hresult⟩ := exists_ok_of_bind hresult
  cases hbefore.symm.trans hbefore'
  obtain ⟨placed, hadd, hafter⟩ := exists_ok_of_bind hresult
  obtain ⟨name', reference?, description, offset, hname', hreference, hdescription, hplacedArgs⟩ :=
    Placement.add_ok htag hadd
  cases hname.symm.trans hname'
  refine ⟨reference?, description, offset, hreference, hdescription, ?_⟩
  rw [get?_of_foldlM (foldlM_concat hbefore hadd) hafter (by simpa using hlast), hplacedArgs,
    NameMap.get?_insert_self]

end Parameters

/-! ## Values that expressions start from -/

/-- The type leads over a pointer to another pointer, whose type is named like this. -/
def PointsToPointer (unit : CompilationUnit) (reference : Option AttrValue)
    (pointee : String) : Prop :=
  ∃ outer inner sizes terminal,
    TypeDescription.Describes unit reference (outer :: inner :: sizes) terminal ∧
    pointee = terminal.typeName ++ TypeDescription.stars (sizes.length + 1)

/-- The expression of the part starts from a value that has its type from this reference. -/
inductive StartsAt (units : Listing CompilationUnit) (language : Language) (symbol : String)
    (unit : CompilationUnit) (reference : Option AttrValue) :
    Part → String → RootBase → Expression → Prop where
  | argument {arg : Argument} {expr : Expression} {parameter : Die}
      (parse : Expression.parse? arg.expr = some expr)
      (isArgument : IsArgument units symbol expr.root unit parameter)
      (type : inheritedAttr? unit parameter AttrName.type = .ok reference) :
      StartsAt units language symbol unit reference (.argument arg) arg.id .stackPointer expr
  | slot {value : ReturnValue} {expr : Expression} {index : Nat} {parameter : Die}
      (parse : Expression.parse? value.expr = some expr)
      (placeholder : Expression.returnIndex? expr.root = some index) (go : language = .go)
      (isArgument : IsArgument units symbol (goReturnSlot index) unit parameter)
      (type : inheritedAttr? unit parameter AttrName.type = .ok reference) :
      StartsAt units language symbol unit reference (.returnValue value) value.id .stackPointer
        expr
  | register {value : ReturnValue} {expr : Expression} {function : Die}
      (parse : Expression.parse? value.expr = some expr)
      (placeholder : Expression.returnIndex? expr.root = some 0)
      (register : language.returnsInRegister)
      (found : findFunction units symbol = .ok (unit, function))
      (type : inheritedAttr? unit function AttrName.type = .ok reference) :
      StartsAt units language symbol unit reference (.returnValue value) value.id .returnRegister
        expr

section Values

variable {units : Listing CompilationUnit} {language : Language} {symbol id pointee : String}
  {unit : CompilationUnit} {reference : Option AttrValue} {part : Part} {base : RootBase}
  {expr : Expression} {setting : Setting}

theorem PointsToPointer.description {description : TypeDescription}
    (hdeep : PointsToPointer unit reference pointee)
    (h : TypeDescription.ofReference unit reference = .ok description) :
    description.kind = .pointer ∧ description.typeName = pointee := by
  obtain ⟨outer, inner, sizes, terminal, hdescribes, rfl⟩ := hdeep
  obtain ⟨sizes', terminal', hdescribes', rfl⟩ :=
    TypeDescription.exists_describes_of_ofReference h
  obtain ⟨rfl, rfl⟩ := hdescribes.unique hdescribes'
  exact ⟨rfl, rfl⟩

theorem PointsToPointer.exists_star (hdeep : PointsToPointer unit reference pointee) :
    ∃ stem, pointee = stem ++ " *" := by
  obtain ⟨outer, inner, sizes, terminal, -, rfl⟩ := hdeep
  exact ⟨terminal.typeName ++ TypeDescription.stars sizes.length, by
    rw [TypeDescription.stars_succ, String.append_assoc]⟩

theorem runFrom_startsAt
    (hsetting : Setting.ofSymbol (factsOf units) language symbol = .ok setting)
    (hdeep : PointsToPointer unit reference pointee)
    (h : StartsAt units language symbol unit reference part id base expr) :
    ∃ offset, ∀ b : Build, (part.step setting).runFrom b =
      if base = .returnRegister ∧ b.scope.symbols.contains returnRegisterVariable = false then
        (.error (.unknownVariable id returnRegisterVariable), b)
      else (Build.onScope (lowerAccessChain setting id ⟨base, offset, .pointer, pointee⟩
        expr.fields)).runFrom b := by
  obtain ⟨-, hlanguage, hargs, hretval⟩ := Setting.ofSymbol_ok.mp hsetting
  have hslot : ∀ {name parameter}, IsArgument units symbol name unit parameter →
      inheritedAttr? unit parameter AttrName.type = .ok reference →
      ∃ offset, setting.args.get? name = some ⟨offset, .pointer, pointee⟩ := by
    intro name parameter hargument htype
    obtain ⟨reference', description, offset, htype', hdescription, hinfo⟩ :=
      exists_description_of_isArgument hargs hargument
    cases htype.symm.trans htype'
    obtain ⟨hkind, hname⟩ := hdeep.description hdescription
    exact ⟨offset, by rw [hinfo, hkind, hname]⟩
  cases h with
  | argument hparse hargument htype =>
      obtain ⟨offset, hinfo⟩ := hslot hargument htype
      refine ⟨offset, fun b => ?_⟩
      simp [Part.step, lowerArgument, hparse, Setting.argInfo, hinfo, Step.runFrom_bind,
        ExprRoot.stack]
  | slot hparse hindex hgo hargument htype =>
      obtain ⟨offset, hinfo⟩ := hslot hargument htype
      refine ⟨offset, fun b => ?_⟩
      simp [Part.step, lowerReturnValue, hparse, hindex, hlanguage, hgo, Setting.argInfo, hinfo,
        Step.runFrom_bind, ExprRoot.stack]
  | register hparse hindex hregister hfunction htype =>
      obtain ⟨⟨unit', function'⟩, hfunction', hretval⟩ := exists_ok_of_bind hretval
      cases hfunction.symm.trans hfunction'
      obtain ⟨reference', htype', hretval⟩ := exists_ok_of_bind hretval
      cases htype.symm.trans (decoded_ok.mp htype')
      obtain ⟨description, hdescription, hretval⟩ := exists_ok_of_bind hretval
      obtain ⟨hkind, hname⟩ := hdeep.description hdescription
      have hreturn : setting.retval = ⟨.pointer, pointee⟩ := by
        rw [← hkind, ← hname]
        exact (Except.ok.inj hretval).symm
      refine ⟨0, fun b => ?_⟩
      rw [← hlanguage] at hregister
      rw [Part.step, lowerReturnValue_eq hparse, hindex, Build.runFrom_onScope]
      dsimp only
      rw [Setting.lowerResult_register hregister]
      by_cases hdeclared : b.scope.symbols.contains returnRegisterVariable
      · simp [lowerRegisterReturn, hreturn, Step.runFrom_bind, hdeclared]
      · simp [lowerRegisterReturn, hreturn, Step.runFrom_bind, hdeclared]

/-! ## Refusals -/

def NoStarredRecord (units : Listing CompilationUnit) : Prop :=
  ∀ unit ∈ units.items, ∀ record ∈ unit.entries.items, ∀ stem,
    ¬ Defines (stem ++ " *") unit record

theorem PointsToPointer.baseType? (hdeep : PointsToPointer unit reference pointee)
    (language : Language) : language.baseType? pointee = none := by
  obtain ⟨stem, rfl⟩ := hdeep.exists_star
  exact language.baseType?_star stem

theorem chain_refused (hfacts : setting.facts = factsOf units)
    (hdeep : PointsToPointer unit reference pointee)
    (hrefused : expr.fields = [] ∨ NoStarredRecord units) (offset : Int) (s t : Scope) :
    (lowerAccessChain setting id ⟨base, offset, .pointer, pointee⟩ expr.fields).runFrom s ≠
      (.ok (), t) := by
  intro hrun
  by_cases hfields : expr.fields = []
  · rw [hfields] at hrun
    have hkind : (ExprRoot.mk base offset .pointer pointee).kind = .pointer := rfl
    have hbare := runFrom_bare id hkind (hdeep.baseType? setting.language) s
    rw [hrun] at hbare
    simp at hbare
  · obtain ⟨field, info, hmember⟩ := exists_member_of_lowerAccessChain hfields hrun
    rw [hfacts] at hmember
    obtain ⟨found, hunit, record, hrecord, hdefines⟩ := defines_of_memberOf hmember
    obtain ⟨stem, rfl⟩ := hdeep.exists_star
    exact hrefused.resolve_left hfields found hunit record hrecord stem hdefines

theorem step_refused
    (hsetting : Setting.ofSymbol (factsOf units) language symbol = .ok setting)
    (hdeep : PointsToPointer unit reference pointee)
    (hstarts : StartsAt units language symbol unit reference part id base expr)
    (hrefused : expr.fields = [] ∨ NoStarredRecord units) (b c : Build) :
    (part.step setting).runFrom b ≠ (.ok (), c) := by
  obtain ⟨offset, hstep⟩ := runFrom_startsAt hsetting hdeep hstarts
  rw [hstep]
  split
  next => simp
  next =>
    rw [Ne, Build.runFrom_onScope_ok]
    rintro ⟨hrun, -⟩
    exact chain_refused (Setting.ofSymbol_ok.mp hsetting).1 hdeep hrefused offset _ _ hrun

theorem probe_refused (hdeep : PointsToPointer unit reference pointee)
    (hstarts : StartsAt units language symbol unit reference part id base expr)
    (hrefused : expr.fields = [] ∨ NoStarredRecord units) {input : Logical.Probe}
    (hsymbol : input.tracepoint.symbol = symbol) (hpart : part ∈ input.parts) (w v : Workspace)
    (probe : Physical.Probe) :
    w.lowerProbe (factsOf units) language input ≠ (.ok probe, v) := by
  intro hlowered
  obtain ⟨setting, b, hsetting, hrun, -⟩ := Workspace.lowerProbe_ok.mp hlowered
  rw [hsymbol] at hsetting
  obtain ⟨before, after, hparts⟩ := List.append_of_mem hpart
  rw [← Build.map_step_parts, hparts, List.map_append, List.map_cons] at hrun
  obtain ⟨t, -, hrest⟩ := Step.runFrom_sequence_append_ok.mp hrun
  obtain ⟨t', hstep, -⟩ := Step.runFrom_sequence_cons_ok.mp hrest
  exact step_refused hsetting hdeep hstarts hrefused t t' hstep

theorem bare_refused
    (hsetting : Setting.ofSymbol (factsOf units) language symbol = .ok setting)
    (hdeep : PointsToPointer unit reference pointee)
    (hstarts : StartsAt units language symbol unit reference part id base expr)
    (hfields : expr.fields = []) {b c : Build} {outcome : Except LowerError Unit}
    (hrun : (part.step setting).runFrom b = (outcome, c)) :
    (∃ block, b.scope.Declares c.scope block ∧ ∀ v ∈ block, v.name ≠ id) ∧
      (b.scope.symbols.contains (pointerName id []) = false →
        (base = .returnRegister → b.scope.symbols.contains returnRegisterVariable) →
        outcome = .error (.unresolvedBaseType language pointee)) := by
  obtain ⟨offset, hstep⟩ := runFrom_startsAt hsetting hdeep hstarts
  have hlanguage := (Setting.ofSymbol_ok.mp hsetting).2.1
  have hnothing : ∃ block, b.scope.Declares b.scope block ∧ ∀ v ∈ block, v.name ≠ id :=
    ⟨[], Scope.declares_nil.mpr rfl, by simp⟩
  rw [hstep] at hrun
  split at hrun
  next hregister =>
    obtain ⟨rfl, rfl⟩ := Prod.mk.inj hrun
    refine ⟨hnothing, fun _ hdeclared => ?_⟩
    exact absurd (hdeclared hregister.1) (by simp [hregister.2])
  next =>
    rw [hfields, Build.runFrom_onScope] at hrun
    obtain ⟨rfl, rfl⟩ := Prod.mk.inj hrun
    have hkind : (ExprRoot.mk base offset .pointer pointee).kind = .pointer := rfl
    rcases runFrom_bare id hkind (hdeep.baseType? setting.language) b.scope with
      ⟨htaken, houtcome⟩ | ⟨-, v, t, hname, hdeclares, houtcome⟩
    · rw [houtcome]
      exact ⟨hnothing, fun hfree _ => absurd htaken (by simp [hfree])⟩
    · rw [houtcome, hlanguage]
      refine ⟨⟨[v], hdeclares, ?_⟩, fun _ _ => rfl⟩
      simpa [hname] using (extendsName_pointerName id []).ne.symm

/--
An expression that starts from a pointer to a pointer and accesses no field is refused.  It
may declare the pointer that it starts from, but nothing under its own name; if the names
that lowering needs are there, the error says that the pointee has no type, and gives its
name with the stars.  Unless a record is called like a pointer, expressions that go on to a
field are refused as well, and so are all probes with such expressions.
-/
theorem deep_pointers (hdeep : PointsToPointer unit reference pointee)
    (hstarts : StartsAt units language symbol unit reference part id base expr) :
    (expr.fields = [] → ∀ setting b outcome c,
      Setting.ofSymbol (factsOf units) language symbol = .ok setting →
      (part.step setting).runFrom b = (outcome, c) →
        (∃ block, b.scope.Declares c.scope block ∧ ∀ v ∈ block, v.name ≠ id) ∧
        (b.scope.symbols.contains (id ++ "_X_") = false →
          (base = .returnRegister → b.scope.symbols.contains returnRegisterVariable) →
          outcome = .error (.unresolvedBaseType language pointee))) ∧
    (expr.fields = [] ∨ NoStarredRecord units →
      (∀ setting b c, Setting.ofSymbol (factsOf units) language symbol = .ok setting →
        (part.step setting).runFrom b ≠ (.ok (), c)) ∧
      ∀ input : Logical.Probe, input.tracepoint.symbol = symbol → part ∈ input.parts →
        ∀ (w : Workspace) probe v,
          w.lowerProbe (factsOf units) language input ≠ (.ok probe, v)) := by
  have hname : pointerName id [] = id ++ "_X_" := by
    simp [pointerName_eq_append, AccessPath.display]
  rw [← hname]
  exact ⟨fun hfields setting b outcome c hsetting hrun =>
      bare_refused hsetting hdeep hstarts hfields hrun,
    fun hrefused => ⟨fun setting b c hsetting =>
        step_refused hsetting hdeep hstarts hrefused b c,
      fun input hsymbol hpart w probe v =>
        probe_refused hdeep hstarts hrefused hsymbol hpart w v probe⟩⟩

end Values

/-- Unit with a function `dump` that takes an `int **` with the name `v`. -/
def dumpBytes : List UInt8 :=
  [47, 0, 0, 0, 4, 0, 0, 0, 0, 0, 8] ++
    [1] ++
    [2, 105, 110, 116, 0, 4] ++
    [5, 12, 0, 0, 0] ++
    [5, 18, 0, 0, 0] ++
    [6, 100, 117, 109, 112, 0, 0, 16, 0, 0, 0, 0, 0, 0] ++
    [7, 118, 0, 23, 0, 0, 0] ++ [0] ++ [0]

def dumpUnits : Listing CompilationUnit :=
  Sections.units {
    order := .little, info := ⟨dumpBytes.toArray⟩, abbrev_ := ⟨connAbbreviations.toArray⟩ }

theorem length_dumpUnits : dumpUnits.items.length = 1 := by decide +kernel

def dumpUnit : CompilationUnit := dumpUnits.items.get (Fin.cast length_dumpUnits.symm 0)

theorem length_entries_dumpUnit : dumpUnit.entries.items.length = 6 := by decide +kernel

def dumpEntry (k : Fin 6) : Die :=
  dumpUnit.entries.items.get (k.cast length_entries_dumpUnit.symm)

theorem findFunction_dump : findFunction dumpUnits "dump" = .ok (dumpUnit, dumpEntry 4) :=
  findFunction_of_singleton (Listing.items_eq_only length_dumpUnits) (by decide +kernel)

def dumpArgument : Argument := ⟨"value", "v"⟩

theorem links_dumpUnit :
    LinkAt dumpUnit (.unitRef 23) (.pointer 8 (some (.unitRef 18))) ∧
      LinkAt dumpUnit (.unitRef 18) (.pointer 8 (some (.unitRef 12))) ∧
      LinkAt dumpUnit (.unitRef 12) (.described ⟨.base, "int", 4⟩) := by
  have hpointers : ∀ link ∈ [(23, dumpEntry 3, 18), (18, dumpEntry 2, 12)],
      dumpUnit.entryAt link.1 = .ok link.2.1 ∧ link.2.1.tag.isPointer = true ∧
        link.2.1.attr? AttrName.byteSize = .ok none ∧
        link.2.1.attr? AttrName.type = .ok (some (.unitRef link.2.2)) := by decide +kernel
  have hint : dumpUnit.entryAt 12 = .ok (dumpEntry 1) ∧ (dumpEntry 1).tag = Tag.baseType ∧
      ownText? dumpUnit (dumpEntry 1) AttrName.name = .ok (some "int") ∧
      (dumpEntry 1).attr? AttrName.byteSize = .ok (some (.data 1 4)) := by decide +kernel
  have hlink : ∀ link ∈ [(23, dumpEntry 3, 18), (18, dumpEntry 2, 12)],
      LinkAt dumpUnit (.unitRef link.1) (.pointer 8 (some (.unitRef link.2.2))) := by
    intro link hmem
    obtain ⟨hentry, htag, hsize, htype⟩ := hpointers link hmem
    exact ⟨link.1, link.2.1, rfl, hentry, .pointer htag hsize htype⟩
  obtain ⟨hentry, htag, hname, hsize⟩ := hint
  exact ⟨hlink (23, dumpEntry 3, 18) (by simp), hlink (18, dumpEntry 2, 12) (by simp),
    12, dumpEntry 1, rfl, hentry, .base htag hname hsize⟩

theorem pointsToPointer_dump : PointsToPointer dumpUnit (some (.unitRef 23)) "int *" := by
  obtain ⟨houter, hinner, hint⟩ := links_dumpUnit
  exact ⟨8, 8, [], _, .cross houter (.cross hinner (.ends hint)), by decide +kernel⟩

theorem startsAt_dump : StartsAt dumpUnits .c "dump" dumpUnit (some (.unitRef 23))
    (.argument dumpArgument) "value" .stackPointer ⟨"v", []⟩ := by
  have hparameter : (dumpUnit.childrenAt (dumpEntry 4).offset).items = [dumpEntry 5] ∧
      (dumpEntry 5).tag = Tag.formalParameter ∧
      ({} : Placement).nameOf dumpUnit (dumpEntry 5) = .ok "v" ∧
      inheritedAttr? dumpUnit (dumpEntry 5) AttrName.type = .ok (some (.unitRef 23)) := by
    decide +kernel
  obtain ⟨hchildren, htag, hname, htype⟩ := hparameter
  have hargument : IsArgument dumpUnits "dump" "v" dumpUnit (dumpEntry 5) :=
    ⟨dumpEntry 4, [], [], findFunction_dump, hchildren, ⟨htag, {}, rfl, hname⟩, by simp⟩
  exact .argument (by decide +kernel) hargument htype

theorem deep_pointers_dump :
    PointsToPointer dumpUnit (some (.unitRef 23)) "int *" ∧
      StartsAt dumpUnits .c "dump" dumpUnit (some (.unitRef 23)) (.argument dumpArgument)
        "value" .stackPointer ⟨"v", []⟩ ∧
      ∀ (w : Workspace) probe v, w.lowerProbe (factsOf dumpUnits) .c
        { name := "dump_entry", tracepoint := ⟨"dump", .entry⟩, args := [dumpArgument] } ≠
          (.ok probe, v) :=
  ⟨pointsToPointer_dump, startsAt_dump,
    ((deep_pointers pointsToPointer_dump startsAt_dump).2 (.inl rfl)).2 _ rfl
      (by simp [Logical.Probe.parts])⟩

end Dwarf

end ProbeLowering
