import ProbeLowering.Lowering.ReturnValue
import ProbeLowering.Proofs.Step

/-!
# Growth of probe scopes

A scope keeps the variables of a probe twice, as the list that becomes part of
the program and as the table that names are looked up in.  `Scope.Consistent`
says that the two hold the same variables in the same order, and
`Scope.Extends P` that a scope is a later state of another one: its variables
are those of the other and after them ones that satisfy `P`, and it is
consistent if the other is.  Every step on scopes respects `Extends P`, also
where it fails, if `P` holds of the kind of variable that the step declares.
-/

namespace ProbeLowering

open DebugInfo
open Physical (Variable ScalarSource)

namespace SymbolTable

theorem declare_ok {table next : SymbolTable} {name : String} {symbol : Symbol} :
    table.declare name symbol = .ok next ↔
      name ∉ table.entries.map Prod.fst ∧
        next.entries = table.entries ++ [(name, symbol)] := by
  obtain ⟨entries, hnodup⟩ := next
  unfold declare
  split
  next hmem => simp [hmem]
  next hmem =>
    simp only [Except.ok.injEq, mk.injEq]
    exact ⟨fun h => ⟨hmem, h.symm⟩, fun h => h.2.symm⟩

theorem contains_iff {table : SymbolTable} {name : String} :
    table.contains name = true ↔ name ∈ table.entries.map Prod.fst := by
  simp [contains]

theorem symbol?_eq_some_iff {table : SymbolTable} {name : String}
    {symbol : Symbol} :
    table.symbol? name = some symbol ↔ (name, symbol) ∈ table.entries := by
  constructor
  · intro h
    obtain ⟨before, after, heq, -⟩ := List.lookup_eq_some_iff.mp h
    simp [heq]
  · intro h
    obtain ⟨before, after, heq⟩ := List.append_of_mem h
    refine List.lookup_eq_some_iff.mpr ⟨before, after, heq, ?_⟩
    have hnodup := table.nodup
    rw [heq, List.map_append, List.nodup_append] at hnodup
    intro entry hentry
    have hne := hnodup.2.2 entry.1 (List.mem_map_of_mem hentry) name (by simp)
    simpa using hne.symm

theorem scalarType?_eq_some_iff {table : SymbolTable} {name : String}
    {type : ScalarType} :
    table.scalarType? name = some type ↔ (name, .scalar type) ∈ table.entries := by
  rw [← symbol?_eq_some_iff]
  unfold scalarType?
  cases hsymbol : table.symbol? name with
  | none => simp
  | some symbol => cases symbol <;> simp

theorem requireScalar_ok {table : SymbolTable} {owner name : String}
    {type : ScalarType} :
    table.requireScalar owner name = .ok type ↔
      (name, .scalar type) ∈ table.entries := by
  rw [← scalarType?_eq_some_iff]
  unfold requireScalar
  cases table.scalarType? name <;> simp

end SymbolTable

theorem Setting.ofSymbol_ok {facts : Facts} {language : Language} {symbol : String}
    {setting : Setting} :
    Setting.ofSymbol facts language symbol = .ok setting ↔
      setting.facts = facts ∧ setting.language = language ∧
        facts.args symbol = .ok setting.args ∧
        facts.retval symbol = .ok setting.retval := by
  obtain ⟨facts', language', args, retval⟩ := setting
  unfold Setting.ofSymbol
  cases facts.args symbol with
  | error e => simp
  | ok found =>
      cases facts.retval symbol with
      | error e => simp
      | ok returned =>
          simp only [Except.ok.injEq, Setting.mk.injEq]
          constructor
          · rintro ⟨rfl, rfl, rfl, rfl⟩
            exact ⟨rfl, rfl, rfl, rfl⟩
          · rintro ⟨rfl, rfl, rfl, rfl⟩
            exact ⟨rfl, rfl, rfl, rfl⟩

namespace Scope

def Consistent (scope : Scope) : Prop :=
  scope.symbols.entries = scope.probe.vars.map fun v => (v.name, symbolOf v)

theorem consistent_start (name : String) (tracepoint : TracePoint) :
    (Scope.start name tracepoint).Consistent := rfl

namespace Consistent

variable {scope : Scope} (h : scope.Consistent)

include h

theorem names_eq :
    scope.symbols.entries.map Prod.fst = scope.probe.vars.map Variable.name := by
  rw [show scope.symbols.entries = _ from h, List.map_map]
  rfl

theorem nodup : (scope.probe.vars.map Variable.name).Nodup := by
  rw [← h.names_eq]
  exact scope.symbols.nodup

theorem contains_iff {name : String} :
    scope.symbols.contains name = true ↔
      name ∈ scope.probe.vars.map Variable.name := by
  rw [SymbolTable.contains_iff, h.names_eq]

theorem mem_entries_iff {name : String} {symbol : Symbol} :
    (name, symbol) ∈ scope.symbols.entries ↔
      ∃ v ∈ scope.probe.vars, v.name = name ∧ symbolOf v = symbol := by
  rw [show scope.symbols.entries = _ from h]
  simp

end Consistent

theorem add_ok {scope next : Scope} {v : Variable} :
    scope.add v = .ok next ↔
      v.name ∉ scope.symbols.entries.map Prod.fst ∧
        next.symbols.entries = scope.symbols.entries ++ [(v.name, symbolOf v)] ∧
        next.probe = { scope.probe with vars := scope.probe.vars ++ [v] } := by
  obtain ⟨symbols, probe⟩ := next
  unfold add
  cases hdeclare : scope.symbols.declare v.name (symbolOf v) with
  | error e =>
      simp only [reduceCtorEq, false_iff]
      rintro ⟨hfresh, hentries, -⟩
      have := SymbolTable.declare_ok.mpr ⟨hfresh, hentries⟩
      rw [hdeclare] at this
      contradiction
  | ok table =>
      obtain ⟨hfresh, hentries⟩ := SymbolTable.declare_ok.mp hdeclare
      simp only [Except.ok.injEq, mk.injEq]
      constructor
      · rintro ⟨rfl, rfl⟩
        exact ⟨hfresh, hentries, rfl⟩
      · rintro ⟨-, hnext, hprobe⟩
        refine ⟨?_, hprobe.symm⟩
        cases table
        cases symbols
        simp_all

/-! ## Later states -/

/-- The variables of `t` are those of `s` followed by ones that satisfy `P`. -/
structure Extends (P : Variable → Prop) (s t : Scope) : Prop where
  vars : ∃ added, t.probe.vars = s.probe.vars ++ added ∧ ∀ v ∈ added, P v
  consistent : s.Consistent → t.Consistent

variable {P : Variable → Prop}

instance : IsPreorder Scope (Extends P) where
  refl _ := ⟨⟨[], by simp⟩, id⟩
  trans := by
    rintro s t u ⟨⟨added, ht, hadded⟩, hst⟩ ⟨⟨added', hu, hadded'⟩, htu⟩
    refine ⟨⟨added ++ added', by simp [hu, ht], ?_⟩, fun hs => htu (hst hs)⟩
    intro v hv
    rcases List.mem_append.mp hv with hv | hv
    · exact hadded v hv
    · exact hadded' v hv

theorem Extends.vars_prefix {s t : Scope} (h : s.Extends P t) :
    s.probe.vars <+: t.probe.vars := by
  obtain ⟨added, ht, -⟩ := h.vars
  exact ⟨added, ht.symm⟩

theorem Extends.mem {s t : Scope} (h : s.Extends P t) {v : Variable}
    (hv : v ∈ t.probe.vars) : v ∈ s.probe.vars ∨ P v := by
  obtain ⟨added, ht, hadded⟩ := h.vars
  rw [ht, List.mem_append] at hv
  exact hv.imp_right (hadded v)

theorem extends_of_add {s t : Scope} {v : Variable} (hv : P v)
    (h : s.add v = .ok t) : s.Extends P t := by
  obtain ⟨-, hentries, hprobe⟩ := add_ok.mp h
  constructor
  · exact ⟨[v], by simp [hprobe], by simpa using hv⟩
  · intro hs
    unfold Consistent at hs ⊢
    simp [hentries, hprobe, hs]

theorem keeps_addVariable {v : Variable} (hv : P v) :
    Step.Keeps (Extends P) (addVariable v) :=
  .update fun _ _ => extends_of_add hv

theorem keeps_keyVariable (helper : Builtin) :
    Step.Keeps (Extends P) (keyVariable helper) :=
  .query _

section Scalars

variable (hP : ∀ x, P (.scalar x))

include hP

theorem keeps_addScalar (name : String) (type : ScalarType)
    (source : ScalarSource) : Step.Keeps (Extends P) (addScalar name type source) :=
  keeps_addVariable (hP _)

theorem keeps_addSpecialVariables (language : Language) :
    Step.Keeps (Extends P) (addSpecialVariables language) := by
  unfold addSpecialVariables addBuiltin
  refine (keeps_addScalar hP _ _ _).bind fun _ => ?_
  refine (keeps_addScalar hP _ _ _).bind fun _ => ?_
  refine (keeps_addScalar hP _ _ _).bind fun _ => ?_
  refine (keeps_addScalar hP _ _ _).bind fun _ => ?_
  refine (keeps_addScalar hP _ _ _).bind fun _ => ?_
  have hregister : Step.Keeps (Extends P) (do
      if (← get).probe.tracepoint.isReturn && language.returnsInRegister then
        addScalar returnRegisterVariable .voidPointer (.register .rc)) :=
    Step.Keeps.get.bind fun _ => (keeps_addScalar hP _ _ _).ite (.pure _)
  exact ((keeps_addScalar hP _ _ _).bind fun _ => hregister).ite hregister

theorem keeps_addLatency (latency : FunctionLatency) :
    Step.Keeps (Extends P) (addLatency latency) :=
  (keeps_addScalar hP _ _ _).bind fun _ _ => ⟨⟨[], by simp⟩, id⟩

end Scalars

theorem runFrom_addVariable_ok {v : Variable} {s t : Scope} :
    (addVariable v).runFrom s = (.ok (), t) ↔ s.add v = .ok t :=
  Step.runFrom_update_ok

theorem probe_of_addVariable {v : Variable} {s t : Scope}
    (h : (addVariable v).runFrom s = (.ok (), t)) :
    t.probe = { s.probe with vars := s.probe.vars ++ [v] } :=
  (add_ok.mp (runFrom_addVariable_ok.mp h)).2.2

theorem fresh_of_addVariable {v : Variable} {s t : Scope} (hs : s.Consistent)
    (h : (addVariable v).runFrom s = (.ok (), t)) :
    v.name ∉ s.probe.vars.map Variable.name := by
  rw [← hs.names_eq]
  exact (add_ok.mp (runFrom_addVariable_ok.mp h)).1

theorem probe_of_forM_addVariable {α : Type} {f : α → Variable} {xs : List α}
    {s t : Scope} (h : (xs.forM fun x => addVariable (f x)).runFrom s = (.ok (), t)) :
    t.probe = { s.probe with vars := s.probe.vars ++ xs.map f } := by
  rw [Step.forM_eq_sequence] at h
  induction xs generalizing s with
  | nil =>
      cases h
      simp
  | cons x xs ih =>
      obtain ⟨u, hx, hrest⟩ := Step.runFrom_sequence_cons_ok.mp h
      rw [ih hrest, probe_of_addVariable hx]
      simp

def specialVariables (language : Language) (tracepoint : TracePoint) : List Variable :=
  [.scalar ⟨stackPointerVariable, .voidPointer, .register .sp⟩,
    .scalar ⟨Builtin.tgid.variableName, .int32, .builtin .tgid⟩,
    .scalar ⟨Builtin.tgidPid.variableName, .uint64, .builtin .tgidPid⟩,
    .scalar ⟨Builtin.tgidStartTime.variableName, .uint64, .builtin .tgidStartTime⟩,
    .scalar ⟨Builtin.ktime.variableName, .uint64, .builtin .ktime⟩] ++
    (if language = .go then
      [.scalar ⟨Builtin.goid.variableName, .int64, .builtin .goid⟩] else []) ++
    if tracepoint.isReturn && language.returnsInRegister then
      [.scalar ⟨returnRegisterVariable, .voidPointer, .register .rc⟩] else []

theorem probe_of_addSpecialVariables {language : Language} {s t : Scope}
    (h : (addSpecialVariables language).runFrom s = (.ok (), t)) :
    t.probe = { s.probe with
      vars := s.probe.vars ++ specialVariables language s.probe.tracepoint } := by
  have hregister : ∀ {u : Scope}, Step.runFrom (do
      if (← get).probe.tracepoint.isReturn && language.returnsInRegister then
        addScalar returnRegisterVariable .voidPointer (.register .rc)) u =
          (.ok (), t) →
      t.probe = { u.probe with vars := u.probe.vars ++
        if u.probe.tracepoint.isReturn && language.returnsInRegister then
          [.scalar ⟨returnRegisterVariable, .voidPointer, .register .rc⟩] else [] } := by
    intro u hu
    obtain ⟨_, _, hget, hu⟩ := Step.runFrom_bind_ok.mp hu
    cases hget
    split at hu
    next hreturn => simp [probe_of_addVariable hu, hreturn]
    next hreturn =>
      cases hu
      simp [hreturn]
  unfold addSpecialVariables at h
  obtain ⟨_, s₁, h₁, h⟩ := Step.runFrom_bind_ok.mp h
  obtain ⟨_, s₂, h₂, h⟩ := Step.runFrom_bind_ok.mp h
  obtain ⟨_, s₃, h₃, h⟩ := Step.runFrom_bind_ok.mp h
  obtain ⟨_, s₄, h₄, h⟩ := Step.runFrom_bind_ok.mp h
  obtain ⟨_, s₅, h₅, h⟩ := Step.runFrom_bind_ok.mp h
  have hcommon : s₅.probe = { s.probe with vars := s.probe.vars ++
      (specialVariables .unknown s.probe.tracepoint) } := by
    rw [probe_of_addVariable h₅, probe_of_addVariable h₄, probe_of_addVariable h₃,
      probe_of_addVariable h₂, probe_of_addVariable h₁]
    simp [specialVariables, Language.returnsInRegister]
  split at h
  next hgo =>
    obtain ⟨_, s₆, h₆, h⟩ := Step.runFrom_bind_ok.mp h
    rw [hregister h, probe_of_addVariable h₆, hcommon]
    simp [specialVariables, hgo, Language.returnsInRegister]
  next hgo =>
    rw [hregister h, hcommon]
    simp [specialVariables, hgo, Language.returnsInRegister]

theorem runFrom_keyVariable_ok {helper : Builtin} {key : String} {s t : Scope} :
    (keyVariable helper).runFrom s = (.ok key, t) ↔
      s.symbols.contains helper.variableName = true ∧
        helper.variableName = key ∧ s = t := by
  simp only [keyVariable, Step.runFrom_query]
  split <;> simp_all

end Scope

section Expressions

variable {P : Variable → Prop} (hP : ∀ x, P (.scalar x))

include hP

namespace Walk

theorem keeps_deref (language : Language) (walk : Walk) :
    Step.Keeps (Scope.Extends P) (walk.deref language) :=
  (Step.Keeps.query _).bind fun _ =>
    (Scope.keeps_addScalar hP _ _ _).bind fun _ => .pure _

theorem keeps_crossPointer (language : Language) (walk : Walk) :
    Step.Keeps (Scope.Extends P) (walk.crossPointer language) :=
  (walk.keeps_deref hP language).ite (.pure _)

theorem keeps_enterField (setting : Setting) (walk : Walk) (field : String) :
    Step.Keeps (Scope.Extends P) (walk.enterField setting field) :=
  (walk.keeps_crossPointer hP setting.language).bind fun _ =>
    (Step.Keeps.query _).bind fun _ => .pure _

theorem keeps_enterFields (setting : Setting) (walk : Walk) (fields : List String) :
    Step.Keeps (Scope.Extends P) (walk.enterFields setting fields) := by
  induction fields generalizing walk with
  | nil => exact Step.Keeps.pure walk
  | cons field rest ih =>
      exact (walk.keeps_enterField hP setting field).bind fun next => ih next

theorem keeps_readThrough (language : Language) (walk : Walk) :
    Step.Keeps (Scope.Extends P) (walk.readThrough language) :=
  ((walk.keeps_deref hP language).bind fun _ => .pure _).ite (.pure _)

end Walk

theorem keeps_lowerAccessChain (setting : Setting) (id : String) (root : ExprRoot)
    (fields : List String) :
    Step.Keeps (Scope.Extends P) (lowerAccessChain setting id root fields) :=
  (Walk.keeps_enterFields hP setting _ fields).bind fun _ =>
    (Walk.keeps_readThrough hP setting.language _).bind fun _ =>
      (Step.Keeps.query _).bind fun _ => Scope.keeps_addScalar hP _ _ _

omit hP in
theorem Setting.keeps_argInfo (setting : Setting) (name : String) :
    Step.Keeps (Scope.Extends P) (setting.argInfo name) :=
  .query _

theorem keeps_lowerArgument (setting : Setting) (arg : Logical.Argument) :
    Step.Keeps (Scope.Extends P) (lowerArgument setting arg) := by
  unfold lowerArgument
  split
  · exact Step.Keeps.throw _
  · exact (setting.keeps_argInfo _).bind fun _ => keeps_lowerAccessChain hP _ _ _ _

theorem keeps_lowerRegisterReturn (setting : Setting) (id : String)
    (fields : List String) :
    Step.Keeps (Scope.Extends P) (lowerRegisterReturn setting id fields) := by
  unfold lowerRegisterReturn
  dsimp only
  split
  · exact (Step.Keeps.query _).bind fun _ => Scope.keeps_addScalar hP _ _ _
  · exact Step.Keeps.get.bind fun _ =>
      (keeps_lowerAccessChain hP _ _ _ _).ite (.throw _)
  · exact Step.Keeps.get.bind fun _ => .throw _
  · exact Step.Keeps.throw _

theorem keeps_lowerReturnValue (setting : Setting) (value : Logical.ReturnValue) :
    Step.Keeps (Scope.Extends P) (lowerReturnValue setting value) := by
  unfold lowerReturnValue
  split
  · exact Step.Keeps.throw _
  split
  · exact Step.Keeps.throw _
  split
  · exact (setting.keeps_argInfo _).bind fun _ => keeps_lowerAccessChain hP _ _ _ _
  · exact (keeps_lowerRegisterReturn hP _ _ _).ite (.throw _)
  · exact (keeps_lowerRegisterReturn hP _ _ _).ite (.throw _)
  · exact Step.Keeps.throw _

end Expressions

end ProbeLowering
