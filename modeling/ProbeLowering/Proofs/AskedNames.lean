import ProbeLowering.Proofs.FirstFailure
import ProbeLowering.Proofs.ReservedNames
import ProbeLowering.Proofs.Walk

/-!
# Names that are asked for

A step on a scope asks for the names of its variables one after the other.  It is given
those that are free and fails at the first that is taken, so the names in the scope and the
error tell what a run has asked for (`Scope.Asked`).  A run that succeeds has asked for all
names of the step (`Step.Asks`), and these are composed along binds.  A walk asks for the names
of the pointers that its fields lead across and for the name of the value at its end; each
part of a probe asks for the names that are made up for it and then for those that the
request gives (`Part.asks_step`).
-/

namespace ProbeLowering

open DebugInfo
open Physical (Variable ScalarSource)
open LowerError (IsLookup)

theorem LowerError.IsLookup.passes {e : LowerError} (h : e.IsLookup) (name : String) :
    e ≠ .duplicateVariable name := by
  rintro rfl
  exact h

namespace Scope

def names (scope : Scope) : List String := scope.symbols.entries.map Prod.fst

/--
Between `s` and `t` the names were asked for in this order.  All of them were free, or the
last one was taken, and the run failed for it.
-/
inductive Asked {α : Type} (s t : Scope) : List String → Except LowerError α → Prop where
  | given {asked : List String} {outcome : Except LowerError α}
      (names : t.names = s.names ++ asked)
      (passed : ∀ name, outcome ≠ .error (.duplicateVariable name)) : Asked s t asked outcome
  | taken (given : List String) {name : String} (names : t.names = s.names ++ given)
      (mem : name ∈ t.names) : Asked s t (given ++ [name]) (.error (.duplicateVariable name))

end Scope

namespace Step

variable {σ α β : Type} {scopeOf : σ → Scope}

/-- A run of the step asks for the names in order, and for all of them if it succeeds. -/
def Asks (scopeOf : σ → Scope) (names : List String) (step : Step σ α) : Prop :=
  ∀ s outcome t, step.runFrom s = (outcome, t) →
    ∃ asked, asked <+: names ∧ (outcome.isOk → asked = names) ∧
      Scope.Asked (scopeOf s) (scopeOf t) asked outcome

structure Silent (scopeOf : σ → Scope) (step : Step σ α) : Prop where
  names : ∀ s, (scopeOf (step.runFrom s).2).names = (scopeOf s).names
  passes : Raises (fun e => ∀ name, e ≠ .duplicateVariable name) step

namespace Silent

theorem query {f : σ → Except LowerError α} (h : Raises IsLookup (query f)) :
    Silent scopeOf (Step.query f) := ⟨fun _ => rfl, h.of_imp fun _ => IsLookup.passes⟩

theorem pure (a : α) : Silent scopeOf (pure a : Step σ α) := ⟨fun _ => rfl, .pure a⟩

theorem get : Silent scopeOf (get : Step σ σ) := ⟨fun _ => rfl, .get⟩

theorem modify {f : σ → σ} (h : ∀ s, (scopeOf (f s)).names = (scopeOf s).names) :
    Silent scopeOf (modify f : Step σ Unit) := ⟨h, .modify f⟩

end Silent

namespace Asks

variable {names xs ys : List String} {step : Step σ α} {next : α → Step σ β}

theorem of_silent (h : Silent scopeOf step) : Asks scopeOf [] step := by
  intro s outcome t hrun
  have hnames := h.names s
  rw [hrun] at hnames
  refine ⟨[], List.prefix_rfl, fun _ => rfl, .given (by simpa using hnames) ?_⟩
  rintro name rfl
  exact h.passes s _ t hrun name rfl

/-- What never succeeds may be said to ask for any names. -/
theorem throw {e : LowerError} (h : ∀ name, e ≠ .duplicateVariable name) :
    Asks scopeOf names (throw e : Step σ α) := by
  rintro s _ _ ⟨⟩
  exact ⟨[], List.nil_prefix, nofun, .given (by simp) fun name heq => h name (by cases heq; rfl)⟩

theorem bind (h : Asks scopeOf xs step)
    (hnext : ∀ s a t, step.runFrom s = (.ok a, t) → Asks scopeOf ys (next a)) :
    Asks scopeOf (xs ++ ys) (step >>= next) := by
  intro s outcome u hrun
  rw [runFrom_bind] at hrun
  rcases hstep : step.runFrom s with ⟨e | a, t⟩
  · rw [hstep] at hrun
    cases hrun
    obtain ⟨asked, hprefix, -, hasked⟩ := h s _ _ hstep
    refine ⟨asked, hprefix.trans (List.prefix_append _ _), nofun, ?_⟩
    cases hasked with
    | given hnames hpassed =>
        exact .given hnames fun name heq => hpassed name (by cases heq; rfl)
    | taken given hnames hmem => exact .taken given hnames hmem
  · rw [hstep] at hrun
    obtain ⟨first, -, hall, hfirst⟩ := h s _ t hstep
    obtain rfl := hall rfl
    obtain ⟨rest, hprefix, hall', hrest⟩ := hnext s a t hstep t outcome u hrun
    refine ⟨first ++ rest, (List.prefix_append_right_inj first).mpr hprefix,
      fun hok => by rw [hall' hok], ?_⟩
    cases hfirst with
    | given hnames _ =>
        cases hrest with
        | given hnames' hpassed => exact .given (by simp [hnames', hnames]) hpassed
        | taken given hnames' hmem =>
            rw [← List.append_assoc]
            exact .taken (first ++ given) (by simp [hnames', hnames]) hmem

theorem silent_bind (h : Silent scopeOf step)
    (hnext : ∀ s a t, step.runFrom s = (.ok a, t) → Asks scopeOf names (next a)) :
    Asks scopeOf names (step >>= next) :=
  (of_silent h).bind hnext

theorem bind_silent (h : Asks scopeOf names step) (hnext : ∀ a, Silent scopeOf (next a)) :
    Asks scopeOf names (step >>= next) := by
  have hbind := h.bind fun _ a _ _ => of_silent (hnext a)
  rwa [List.append_nil] at hbind

theorem ite {c : Prop} [Decidable c] {other : Step σ α} (h : c → Asks scopeOf names step)
    (h' : ¬c → Asks scopeOf names other) : Asks scopeOf names (if c then step else other) := by
  split
  next hc => exact h hc
  next hc => exact h' hc

theorem forM {γ : Type} {f : γ → Step σ Unit} {nameOf : γ → String} {xs : List γ}
    (h : ∀ x, Asks scopeOf [nameOf x] (f x)) :
    Asks scopeOf (xs.map nameOf) (xs.forM f) := by
  rw [forM_eq_sequence]
  induction xs with
  | nil => exact of_silent (.pure ())
  | cons x xs ih => exact (h x).bind fun _ _ _ _ => ih

end Asks

end Step

open Step (Asks Silent)

namespace Scope

theorem add_error {s : Scope} {v : Variable} {e : LowerError} (h : s.add v = .error e) :
    v.name ∈ s.names ∧ e = .duplicateVariable v.name := by
  unfold add SymbolTable.declare at h
  split at h
  next hdeclare =>
    cases h
    split at hdeclare <;> cases hdeclare
    next hmem => exact ⟨hmem, rfl⟩
  next => cases h

theorem asks_addVariable (v : Variable) : Asks id [v.name] (addVariable v) := by
  intro s outcome t hrun
  refine ⟨[v.name], List.prefix_rfl, fun _ => rfl, ?_⟩
  cases hadd : s.add v with
  | ok next =>
      obtain ⟨-, hentries, -⟩ := add_ok.mp hadd
      obtain ⟨rfl, rfl⟩ : .ok () = outcome ∧ next = t := by
        simpa [addVariable, Step.runFrom_update, hadd] using hrun
      exact .given (by simp [names, hentries]) (by simp)
  | error e =>
      obtain ⟨rfl, rfl⟩ : .error e = outcome ∧ s = t := by
        simpa [addVariable, Step.runFrom_update, hadd] using hrun
      obtain ⟨hmem, rfl⟩ := add_error hadd
      exact .taken [] (by simp) hmem

theorem asks_addScalar (name : String) (type : ScalarType) (source : ScalarSource) :
    Asks id [name] (addScalar name type source) :=
  asks_addVariable _

theorem runFrom_addVariable_bind {v : Variable} {block : List Variable} {s t : Scope}
    {next : Step Scope Unit} (h : s.Declares t (v :: block))
    (hnext : ∀ u, u.Declares t block → u.probe.tracepoint = s.probe.tracepoint →
      next.runFrom u = (.ok (), t)) :
    (do addVariable v; next : Step Scope Unit).runFrom s = (.ok (), t) := by
  rw [← List.singleton_append] at h
  obtain ⟨u, hv, hrest⟩ := declares_append.mp h
  exact Step.runFrom_bind_ok.mpr ⟨(), u, runFrom_addVariable_ok_iff.mpr hv,
    hnext u hrest (by rw [hv.probe])⟩

theorem exists_run_special (language : Language) (symbol : String) (tracepoint : TracePoint) :
    ∃ t, (addSpecialVariables language).runFrom (.start symbol tracepoint) = (.ok (), t) ∧
      t.names = (specialVariables language tracepoint).map Variable.name := by
  have hdistinct : ((specialVariables language tracepoint).map Variable.name).Nodup := by
    unfold specialVariables
    split <;> split <;> decide
  obtain ⟨t, ht⟩ := (exists_declares_iff (s := .start symbol tracepoint)).mpr
    ⟨fun v _ => by rfl, hdistinct⟩
  refine ⟨t, ?_, by simp [names, ht.symbols, Function.comp_def]; rfl⟩
  have hregister : ∀ u : Scope, u.Declares t (if tracepoint.isReturn && language.returnsInRegister
        then [.scalar ⟨returnRegisterVariable, .voidPointer, .register .rc⟩] else []) →
      u.probe.tracepoint = tracepoint →
      (do
        if (← get).probe.tracepoint.isReturn && language.returnsInRegister then
          addScalar returnRegisterVariable .voidPointer (.register .rc) :
        Step Scope Unit).runFrom u = (.ok (), t) := by
    intro u hu hpoint
    refine Step.runFrom_bind_ok.mpr ⟨u, u, rfl, ?_⟩
    rw [hpoint]
    split at hu
    next hreturn =>
      rw [if_pos hreturn]
      exact runFrom_addVariable_ok_iff.mpr hu
    next hreturn =>
      rw [if_neg hreturn, declares_nil.mp hu]
      rfl
  unfold specialVariables at ht
  unfold addSpecialVariables addBuiltin
  simp only [List.cons_append] at ht
  refine runFrom_addVariable_bind ht fun u₁ ht h₁ => ?_
  refine runFrom_addVariable_bind ht fun u₂ ht h₂ => ?_
  refine runFrom_addVariable_bind ht fun u₃ ht h₃ => ?_
  refine runFrom_addVariable_bind ht fun u₄ ht h₄ => ?_
  refine runFrom_addVariable_bind ht fun u₅ ht h₅ => ?_
  have hpoint : u₅.probe.tracepoint = tracepoint := by
    rw [h₅, h₄, h₃, h₂, h₁]
    rfl
  by_cases hgo : language = .go
  · rw [if_pos hgo] at ht ⊢
    exact runFrom_addVariable_bind ht fun u ht h => hregister u ht (h.trans hpoint)
  · rw [if_neg hgo] at ht ⊢
    exact hregister u₅ ht hpoint

end Scope

/-! ## Walks -/

theorem extendsName_pointerName (id : String) (steps : List PathStep) :
    ExtendsName id (pointerName id steps) :=
  ⟨String.join (steps.map PathStep.display) ++ "_X_", by simp, by
    rw [pointerName_eq_append, AccessPath.display, String.append_assoc]⟩

namespace Stop

def reached (facts : Facts) (stop : Stop) : List String → List Stop
  | [] => []
  | field :: rest =>
      match facts.member stop.typeName field with
      | .error _ => []
      | .ok info => stop.enter field info :: (stop.enter field info).reached facts rest

variable {facts : Facts} {setting : Setting} {language : Language} {stop : Stop}
  {field name : String} {fields : List String}

theorem reached_cons {info : MemberInfo} (h : facts.member stop.typeName field = .ok info)
    (rest : List String) :
    stop.reached facts (field :: rest) =
      stop.enter field info :: (stop.enter field info).reached facts rest := by
  rw [reached, h]

theorem exists_behind_reached (facts : Facts) (stop : Stop) (fields : List String) :
    ∃ first, stop.behind facts first = .ok (stop.reached facts fields) := by
  induction fields generalizing stop with
  | nil => exact ⟨[], rfl⟩
  | cons field rest ih =>
      cases hmember : facts.member stop.typeName field with
      | error e => exact ⟨[], by simp [reached, hmember, behind]⟩
      | ok info =>
          obtain ⟨first, hfirst⟩ := ih (stop.enter field info)
          refine ⟨field :: first, behind_cons_ok.mpr ⟨info, _, hmember, hfirst, ?_⟩⟩
          exact reached_cons hmember rest

theorem pointerNames_append (stops later : List Stop) :
    pointerNames (stops ++ later) = pointerNames stops ++ pointerNames later := by
  simp [pointerNames]

theorem asks_crossPointer (language : Language) (stop : Stop) (base : String) (offset : Int) :
    Asks id (pointerNames [stop]) ((stop.walk base offset).crossPointer language) := by
  unfold Walk.crossPointer
  by_cases hpointer : (stop.walk base offset).kind = .pointer
  · have hkind : stop.kind = .pointer := hpointer
    have hnames : pointerNames [stop] = [(stop.path.push .deref).display] := by
      simp [pointerNames, isPointer, exit, hkind]
    rw [hnames, if_pos hpointer]
    refine .silent_bind (.query (raises_resolveScalarType _ _ _)) fun _ type _ _ => ?_
    exact (Scope.asks_addScalar _ _ _).bind_silent fun _ => .pure _
  · have hkind : stop.kind ≠ .pointer := hpointer
    have hnames : pointerNames [stop] = [] := by simp [pointerNames, isPointer, hkind]
    rw [hnames, if_neg hpointer]
    exact .of_silent (.pure _)

theorem asks_finish (language : Language) (name : String) (stop : Stop) (base : String)
    (offset : Int) :
    Asks id (pointerNames [stop] ++ [name]) (finish language name (stop.walk base offset)) := by
  unfold finish
  rw [readThrough_eq]
  refine ((asks_crossPointer language stop base offset).bind_silent fun _ => .pure _).bind
    fun _ last _ _ => ?_
  exact .silent_bind (.query (raises_resolveScalarType _ _ _)) fun _ type _ _ =>
    Scope.asks_addScalar _ _ _

theorem asks_enterField (setting : Setting) (field : String) (stop : Stop) (base : String)
    (offset : Int) :
    Asks id (pointerNames [stop]) ((stop.walk base offset).enterField setting field) := by
  have hmember : ∀ walk : Walk, Asks id [] (do
      let info ← .query fun _ =>
        (setting.facts.member walk.typeName field).mapError .debugInfo
      pure (walk.enterMember field info) : Step Scope Walk) := fun walk =>
    .silent_bind (.query (setting.raises_member _ _)) fun _ _ _ _ => .of_silent (.pure _)
  have hbind := (asks_crossPointer setting.language stop base offset).bind
    fun _ walk _ _ => hmember walk
  rwa [List.append_nil] at hbind

/-- By induction on the fields: in front of each stands at most one pointer. -/
theorem asks_enterFields (setting : Setting) (name : String) (stop : Stop) (base : String)
    (offset : Int) (fields : List String) :
    Asks id (pointerNames (stop :: stop.reached setting.facts fields) ++ [name])
      ((stop.walk base offset).enterFields setting fields >>= finish setting.language name) := by
  induction fields generalizing stop base offset with
  | nil =>
      rw [Walk.enterFields, pure_bind]
      exact asks_finish setting.language name stop base offset
  | cons field rest ih =>
      rw [Walk.enterFields, bind_assoc, ← List.singleton_append, pointerNames_append,
        List.append_assoc]
      refine (asks_enterField setting field stop base offset).bind fun s next t hrun => ?_
      obtain ⟨info, hmember, rfl, -⟩ := enterField_ok_iff.mp hrun
      rw [reached_cons hmember]
      exact ih _ _ _

end Stop

/-! ## Expressions -/

/-- What an expression walks: from where, and along which fields. -/
structure Route where
  id : String
  root : ExprRoot
  fields : List String
  deriving DecidableEq, Repr

namespace Route

def pointers (facts : Facts) (route : Route) : List String :=
  let start := Stop.ofRoot route.id route.root
  Stop.pointerNames (start :: start.reached facts route.fields)

variable {facts : Facts} {route : Route} {name : String}

theorem pairwise_pointers (facts : Facts) (route : Route) :
    (route.id :: route.pointers facts).Pairwise ExtendsName := by
  obtain ⟨first, hfirst⟩ :=
    Stop.exists_behind_reached facts (.ofRoot route.id route.root) route.fields
  exact Stop.pairwise_pointerNames hfirst

theorem nodup_pointers (facts : Facts) (route : Route) : (route.pointers facts).Nodup :=
  (List.pairwise_cons.mp (route.pairwise_pointers facts)).2.imp ExtendsName.ne

end Route

theorem asks_lowerAccessChain (setting : Setting) (route : Route) :
    Asks id (route.pointers setting.facts ++ [route.id])
      (lowerAccessChain setting route.id route.root route.fields) := by
  have hstart : Walk.start route.id route.root =
      (Stop.ofRoot route.id route.root).walk route.root.base.variableName 0 := by
    simp [Walk.start, Stop.walk, Stop.ofRoot]
  have hasks := Stop.asks_enterFields setting route.id (.ofRoot route.id route.root)
    route.root.base.variableName 0 route.fields
  rw [← hstart] at hasks
  exact hasks

theorem asks_lowerRoute {setting : Setting} {name : String} {root : ExprRoot}
    {fields names : List String}
    (h : names = Route.pointers setting.facts ⟨name, root, fields⟩) :
    Asks id (names ++ [name]) (lowerAccessChain setting name root fields) := by
  rw [h]
  exact asks_lowerAccessChain setting ⟨name, root, fields⟩

/-- Where the result of an index is walked from; a base value in a register is not walked. -/
def Setting.resultRoot? (setting : Setting) (index : Nat) : Option ExprRoot :=
  match setting.language with
  | .go => (setting.args.get? (goReturnSlot index)).map .stack
  | .c | .cpp =>
      if index = 0 ∧ setting.retval.kind = .pointer then
        some ⟨.returnRegister, 0, .pointer, setting.retval.typeName⟩
      else none
  | .unknown => none

namespace Logical.Part

def route? (setting : Setting) : Part → Option Route
  | .argument arg => do
      let expr ← Expression.parse? arg.expr
      let info ← setting.args.get? expr.root
      pure ⟨arg.id, .stack info, expr.fields⟩
  | .returnValue value => do
      let expr ← Expression.parse? value.expr
      let index ← Expression.returnIndex? expr.root
      let root ← setting.resultRoot? index
      pure ⟨value.id, root, expr.fields⟩
  | _ => none

def pointers (setting : Setting) (part : Part) : List String :=
  ((part.route? setting).map (Route.pointers setting.facts)).getD []

/-- Map or output whose entry has a variable, and how the name of this variable ends. -/
def entries : Part → List (String × String)
  | .read value => [(value.mapName, "_ptr")]
  | .stash action => [(action.mapName, "_value")]
  | .output action => [(action.outputName, "_value")]
  | _ => []

/-- Names that lowering makes up for variables of the part. -/
def made (setting : Setting) (part : Part) : List String :=
  part.pointers setting ++ part.entries.map fun (owner, ending) => owner ++ ending

def declared : Part → List String
  | .constant value => [value.name]
  | .argument arg => [arg.id]
  | .returnValue value => [value.id]
  | .read value => value.valueIds
  | .latency asked => [asked.id]
  | _ => []

end Logical.Part

open Logical (Part)

theorem asks_lowerArgument (setting : Setting) (arg : Logical.Argument) :
    Asks id ((Part.argument arg).pointers setting ++ [arg.id]) (lowerArgument setting arg) := by
  unfold lowerArgument
  split
  next => exact .throw nofun
  next expr hparse =>
    refine .silent_bind (.query (setting.raises_argInfo _)) fun s info t hrun => ?_
    refine asks_lowerRoute ?_
    simp [Part.pointers, Part.route?, hparse, (argInfo_ok hrun).1]

theorem asks_lowerRegisterReturn (setting : Setting) (name : String) (fields : List String) :
    Asks id ((if setting.retval.kind = .pointer then
        Route.pointers setting.facts
          ⟨name, ⟨.returnRegister, 0, .pointer, setting.retval.typeName⟩, fields⟩ else []) ++
        [name])
      (lowerRegisterReturn setting name fields) := by
  unfold lowerRegisterReturn
  cases hkind : setting.retval.kind with
  | base =>
      simp only [hkind]
      exact .silent_bind (.query (raises_resolveScalarType _ _ _)) fun _ type _ _ =>
        Scope.asks_addScalar _ _ _
  | pointer =>
      simp only [hkind, if_true]
      refine .silent_bind .get fun _ scope _ _ => .ite (fun _ => ?_) fun _ => .throw nofun
      exact asks_lowerRoute rfl
  | void =>
      simp only [hkind]
      exact .silent_bind .get fun _ scope _ _ => .throw nofun
  | struct =>
      simp only [hkind]
      exact .throw nofun

theorem asks_lowerReturnValue (setting : Setting) (value : Logical.ReturnValue) :
    Asks id ((Part.returnValue value).pointers setting ++ [value.id])
      (lowerReturnValue setting value) := by
  unfold lowerReturnValue
  split
  next => exact .throw (by simp)
  next expr hparse =>
    split
    next => exact .throw (by simp)
    next index hindex =>
      have hregister (hlanguage : setting.language.returnsInRegister) (hzero : index = 0) :
          Asks id ((Part.returnValue value).pointers setting ++ [value.id])
            (lowerRegisterReturn setting value.id expr.fields) := by
        have hroot : setting.resultRoot? index =
            if setting.retval.kind = .pointer then
              some ⟨.returnRegister, 0, .pointer, setting.retval.typeName⟩ else none := by
          unfold Setting.resultRoot?
          cases hcase : setting.language <;> simp_all [Language.returnsInRegister]
        have hasks := asks_lowerRegisterReturn setting value.id expr.fields
        simp only [Part.pointers, Part.route?, hparse, hindex, hroot, Option.bind_eq_bind,
          Option.bind_some]
        split at hasks <;> simp_all
      cases hlanguage : setting.language with
      | go =>
          refine .silent_bind (.query (setting.raises_argInfo _)) fun s info t hrun => ?_
          refine asks_lowerRoute ?_
          simp [Part.pointers, Part.route?, Setting.resultRoot?, hparse, hindex, hlanguage,
            (argInfo_ok hrun).1]
      | c | cpp =>
          simp only
          exact .ite (hregister (by rw [hlanguage]; rfl)) fun _ => .throw (by simp)
      | unknown =>
          exact .throw (by simp)

/-! ## Parts -/

namespace Build

theorem asks_onScope {names : List String} {step : Step Scope Unit} (h : Asks id names step) :
    Asks Build.scope names (onScope step) := by
  intro b outcome c hrun
  obtain ⟨houtcome, rfl⟩ := Prod.mk.inj hrun
  exact h b.scope outcome _ (Prod.ext houtcome rfl)

end Build

/-- What the plan finds out before it declares anything is no taken name. -/
theorem Plan.asks_step {names : List String} {plan : Plan}
    (hplan : ∀ b e, plan b = .error e → ∀ name, e ≠ .duplicateVariable name)
    (hdeclare : ∀ b effect, plan b = .ok effect → Asks id names effect.declare) :
    Asks Build.scope names plan.step := by
  intro b outcome c hrun
  rw [runFrom_step] at hrun
  cases hb : plan b with
  | error e =>
      rw [hb] at hrun
      cases hrun
      exact ⟨[], List.nil_prefix, nofun,
        .given (by simp) fun name heq => hplan b e hb name (Except.error.inj heq)⟩
  | ok effect =>
      rw [hb] at hrun
      obtain ⟨houtcome, rfl⟩ := Prod.mk.inj hrun
      exact hdeclare b effect hb b.scope outcome _ (Prod.ext houtcome rfl)

theorem Logical.Part.asks_step {part : Part} (hpart : part ≠ .special) (setting : Setting) :
    Asks Build.scope (part.made setting ++ part.declared) (part.step setting) := by
  have hkey : ∀ helper, Silent id (Scope.keyVariable helper) := fun helper =>
    .query (Scope.raises_keyVariable helper)
  cases part with
  | special => exact absurd rfl hpart
  | constant value => exact Build.asks_onScope (Scope.asks_addScalar _ _ _)
  | argument arg =>
      have hasks := Build.asks_onScope (asks_lowerArgument setting arg)
      rwa [← List.append_nil ((Part.argument arg).pointers setting)] at hasks
  | returnValue value =>
      have hasks := Build.asks_onScope (asks_lowerReturnValue setting value)
      rwa [← List.append_nil ((Part.returnValue value).pointers setting)] at hasks
  | latency asked =>
      exact Build.asks_onScope ((Scope.asks_addScalar _ _ _).bind_silent fun _ =>
        .modify fun _ => rfl)
  | printks lines => exact .of_silent (.modify fun _ => rfl)
  | read value =>
      rw [step, ← Plan.step_read]
      refine Plan.asks_step (fun b e h => ?_) (fun b effect h => ?_)
      · exact (Build.isLookup_of_readLayout (error_of_map_error h)).passes
      · obtain ⟨layout, hlayout, rfl⟩ := exists_ok_of_map_ok h
        obtain ⟨-, -, hlength⟩ := Build.readLayout_ok hlayout
        have hmembers : Asks id ((value.valueIds.zip layout.fields).map Prod.fst)
            (Build.addMembers (Build.mapHandleName value.mapName)
              (value.valueIds.zip layout.fields)) :=
          Asks.forM fun member => Scope.asks_addVariable _
        rw [List.map_fst_zip hlength] at hmembers
        exact .silent_bind (hkey _) fun _ key _ _ =>
          (Scope.asks_addVariable _).bind fun _ _ _ _ => hmembers
  | delete action =>
      rw [step, ← Plan.step_delete]
      refine Plan.asks_step (fun b e h => ?_) (fun b effect h => ?_)
      · exact (Workspace.isLookup_of_map? (error_of_map_error h)).passes
      · obtain ⟨_, -, rfl⟩ := exists_ok_of_map_ok h
        exact .silent_bind (hkey _) fun _ key _ _ => .of_silent (.modify fun _ => rfl)
  | stash action =>
      rw [step_of_action? rfl]
      refine Plan.asks_step (fun b e h => ?_) (fun b effect h => ?_)
      · rcases Build.stashRecord_error (error_of_map_error h) with
          hlookup | ⟨_, _, _, -, -, -, rfl⟩
        · exact hlookup.passes
        · simp
      · obtain ⟨_, -, rfl⟩ := exists_ok_of_map_ok h
        exact (Scope.asks_addVariable _).bind fun _ _ _ _ =>
          .silent_bind (hkey _) fun _ key _ _ => .of_silent (.modify fun _ => rfl)
  | output action =>
      rw [step_of_action? rfl]
      refine Plan.asks_step (fun b e h => ?_) (fun b effect h => ?_)
      · rcases Build.outputRecord_error (error_of_map_error h) with
          hlookup | ⟨_, _, -, -, rfl⟩
        · exact hlookup.passes
        · simp
      · obtain ⟨_, -, rfl⟩ := exists_ok_of_map_ok h
        exact (Scope.asks_addVariable _).bind_silent fun _ => .modify fun _ => rfl

end ProbeLowering
