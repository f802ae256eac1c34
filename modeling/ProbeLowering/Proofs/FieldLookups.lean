import ProbeLowering.Proofs.Itinerary
import ProbeLowering.Proofs.Sources

/-!
# Field lookups

An expression that is lowered by a walk has every field looked up in the type that the
fields before lead to (`Facts.Members`).  Arguments, results in stack slots and results of
pointer kind are walked.  A result of base kind is the return register whatever fields
stand behind its placeholder, and these are not looked up (`lowered_expressions`).
-/

namespace ProbeLowering

open DebugInfo
open Physical (Variable)

/-- Each field is found in the type that the fields before lead to. -/
inductive DebugInfo.Facts.Members (facts : Facts) :
    String → List String → List MemberInfo → Prop
  | nil {typeName : String} : Members facts typeName [] []
  | cons {typeName field : String} {info : MemberInfo} {fields : List String}
      {infos : List MemberInfo} (found : facts.member typeName field = .ok info)
      (rest : Members facts info.typeName fields infos) :
      Members facts typeName (field :: fields) (info :: infos)

namespace Stop

def along (stop : Stop) : List (String × MemberInfo) → List Stop
  | [] => []
  | (field, info) :: rest => stop.enter field info :: (stop.enter field info).along rest

variable {facts : Facts} {stop : Stop} {fields : List String} {later : List Stop}

theorem behind_ok_iff :
    stop.behind facts fields = .ok later ↔
      ∃ infos, facts.Members stop.typeName fields infos ∧
        later = stop.along (fields.zip infos) := by
  induction fields generalizing stop later with
  | nil =>
      rw [behind]
      constructor
      · rintro ⟨⟩
        exact ⟨[], .nil, rfl⟩
      · rintro ⟨infos, -, rfl⟩
        rfl
  | cons field rest ih =>
      rw [behind_cons_ok]
      constructor
      · rintro ⟨info, further, hfound, hfurther, rfl⟩
        obtain ⟨infos, hrest, rfl⟩ := ih.mp hfurther
        exact ⟨info :: infos, .cons hfound hrest, rfl⟩
      · rintro ⟨_, _ | ⟨hfound, hrest⟩, rfl⟩
        exact ⟨_, _, hfound, ih.mpr ⟨_, hrest, rfl⟩, rfl⟩

end Stop

/--
From `s` to `t` the fields are looked up from the type of `root` on, and the loads on the
way they lead are declared.
-/
def Setting.Walked (setting : Setting) (s t : Scope) (id : String) (root : ExprRoot)
    (fields : List String) : Prop :=
  ∃ infos type, setting.facts.Members root.typeName fields infos ∧
    let later := (Stop.ofRoot id root).along (fields.zip infos)
    (later.getLastD (.ofRoot id root)).targetType setting.language = .ok type ∧
    s.Declares t (Stop.loads id root.base type (.ofRoot id root :: later))

def Setting.Bound (setting : Setting) (s t : Scope) (id : String) : Prop :=
  ∃ type, resolveScalarType setting.language .base setting.retval.typeName = .ok type ∧
    s.Declares t [.scalar ⟨id, type, .register .rc⟩]

section Expressions

variable {setting : Setting} {s t : Scope}

theorem lowerAccessChain_walked {id : String} {root : ExprRoot} {fields : List String} :
    (lowerAccessChain setting id root fields).runFrom s = (.ok (), t) ↔
      setting.Walked s t id root fields := by
  rw [lowerAccessChain_ok_iff]
  constructor
  · rintro ⟨later, type, hlater, htype, hdeclares⟩
    obtain ⟨infos, hmembers, rfl⟩ := Stop.behind_ok_iff.mp hlater
    exact ⟨infos, type, hmembers, htype, hdeclares⟩
  · rintro ⟨infos, type, hmembers, htype, hdeclares⟩
    exact ⟨_, type, Stop.behind_ok_iff.mpr ⟨infos, hmembers, rfl⟩, htype, hdeclares⟩

theorem argInfo_ok_iff {name : String} {info : ArgInfo} :
    (setting.argInfo name).runFrom s = (.ok info, t) ↔
      setting.args.get? name = some info ∧ s = t := by
  refine ⟨argInfo_ok, ?_⟩
  rintro ⟨hinfo, rfl⟩
  simp [Setting.argInfo, hinfo]

theorem lowerSlot_walked {id slot : String} {fields : List String} :
    (do
        let info ← setting.argInfo slot
        lowerAccessChain setting id (.stack info) fields : Step Scope Unit).runFrom s
          = (.ok (), t) ↔
      ∃ info, setting.args.get? slot = some info ∧
        setting.Walked s t id (.stack info) fields := by
  rw [Step.runFrom_bind_ok]
  constructor
  · rintro ⟨info, _, hquery, hchain⟩
    obtain ⟨hinfo, rfl⟩ := argInfo_ok_iff.mp hquery
    exact ⟨info, hinfo, lowerAccessChain_walked.mp hchain⟩
  · rintro ⟨info, hinfo, hwalked⟩
    exact ⟨info, s, argInfo_ok_iff.mpr ⟨hinfo, rfl⟩, lowerAccessChain_walked.mpr hwalked⟩

theorem lowerRegisterReturn_ok_iff {id : String} {fields : List String} :
    (lowerRegisterReturn setting id fields).runFrom s = (.ok (), t) ↔
      (setting.retval.kind = .pointer ∧ s.symbols.contains returnRegisterVariable ∧
        setting.Walked s t id ⟨.returnRegister, 0, .pointer, setting.retval.typeName⟩
          fields) ∨
      (setting.retval.kind = .base ∧ setting.Bound s t id) := by
  unfold lowerRegisterReturn
  cases hkind : setting.retval.kind with
  | base =>
      simp only [hkind, Step.runFrom_bind_ok, Step.runFrom_query, Prod.mk.injEq, reduceCtorEq,
        false_and, true_and, false_or, Setting.Bound]
      constructor
      · rintro ⟨type, _, ⟨htype, rfl⟩, hadd⟩
        exact ⟨type, htype, Scope.runFrom_addVariable_ok_iff.mp hadd⟩
      · rintro ⟨type, htype, hdeclares⟩
        exact ⟨type, s, ⟨htype, rfl⟩, Scope.runFrom_addVariable_ok_iff.mpr hdeclares⟩
  | pointer =>
      by_cases hregister : s.symbols.contains returnRegisterVariable
      · simp [hkind, Step.runFrom_bind, hregister, lowerAccessChain_walked]
      · simp [hkind, Step.runFrom_bind, hregister]
  | void => simp [hkind, Step.runFrom_bind]
  | struct => simp [hkind]

/--
What lowers an expression.  Arguments are walked from their slot, and so are results in
stack slots.  Behind the placeholder of the return register the fields are walked if the
function returns a pointer, but the register is bound as it is if the result is of base
kind, for all fields alike.
-/
theorem lowered_expressions (setting : Setting) (s t : Scope) :
    (∀ arg, (lowerArgument setting arg).runFrom s = (.ok (), t) ↔
      ∃ expr info, Expression.parse? arg.expr = some expr ∧
        setting.args.get? expr.root = some info ∧
        setting.Walked s t arg.id (.stack info) expr.fields) ∧
    ∀ value, (lowerReturnValue setting value).runFrom s = (.ok (), t) ↔
      ∃ expr index, Expression.parse? value.expr = some expr ∧
        Expression.returnIndex? expr.root = some index ∧
        ((setting.language = .go ∧ ∃ info,
            setting.args.get? (goReturnSlot index) = some info ∧
            setting.Walked s t value.id (.stack info) expr.fields) ∨
          (setting.language.returnsInRegister ∧ index = 0 ∧
            ((setting.retval.kind = .pointer ∧ s.symbols.contains returnRegisterVariable ∧
                setting.Walked s t value.id
                  ⟨.returnRegister, 0, .pointer, setting.retval.typeName⟩ expr.fields) ∨
              (setting.retval.kind = .base ∧ setting.Bound s t value.id)))) := by
  constructor
  · intro arg
    unfold lowerArgument
    cases Expression.parse? arg.expr with
    | none => simp
    | some expr => simp [lowerSlot_walked]
  · intro value
    unfold lowerReturnValue
    cases Expression.parse? value.expr with
    | none => simp
    | some expr =>
        cases hindex : Expression.returnIndex? expr.root with
        | none => simp [hindex]
        | some index =>
            cases hlanguage : setting.language with
            | go => simp [hindex, lowerSlot_walked, Language.returnsInRegister]
            | unknown => simp [hindex, Language.returnsInRegister]
            | c | cpp =>
                by_cases hzero : index = 0
                · simp [hindex, hzero, lowerRegisterReturn_ok_iff,
                    Language.returnsInRegister]
                · simp [hindex, hzero]

end Expressions

def countTotal : Logical.Probe where
  name := "count_return"
  tracepoint := ⟨"count", .onReturn⟩
  retVals := [⟨"n", "$0.total"⟩]

def countTotalProbe : Physical.Probe where
  name := "count_return"
  tracepoint := ⟨"count", .onReturn⟩
  vars := Scope.specialVariables .c ⟨"count", .onReturn⟩ ++
    [.scalar ⟨"n", .long, .register .rc⟩]

theorem exists_field_not_looked_up :
    ({} : Workspace).lowerProbe countFacts .c countTotal = (.ok countTotalProbe, {}) ∧
      Expression.parse? "$0.total" = some ⟨"$0", ["total"]⟩ ∧
      countFacts.retval "count" = .ok ⟨.base, "long int"⟩ ∧
      ¬ ∃ infos, countFacts.Members "long int" ["total"] infos := by
  refine ⟨by decide +kernel, by decide +kernel, rfl, ?_⟩
  rintro ⟨infos, hmembers⟩
  cases hmembers
  contradiction

end ProbeLowering
