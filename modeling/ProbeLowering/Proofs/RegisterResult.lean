import ProbeLowering.Proofs.Walk

/-!
# Results in the return register

In C and C++ the return register holds the result.  A result of base kind is the value
of the register.  A result of pointer kind is walked from the register as if the pointer
lay in memory at this address: everything is read from where the word behind the
register points, and not from where the register itself points
(`results_read_behind_register`).
-/

namespace ProbeLowering

open DebugInfo
open Physical (Variable)

namespace Machine

/--
The variable `id` has the result of a function: the value of the return register, or
what `fields` lead to from the record or scalar at `start` that the result points to.
-/
def HasResult (m : Machine) (facts : Facts) (language : Language)
    (probe : Physical.Probe) (retval : RetValInfo) (start : Int) (id : String)
    (fields : List String) : Prop :=
  match retval.kind with
  | .base => (m.evaluate probe.vars).lookup id = some m.returnRegister
  | .pointer =>
      m.ReadsReference facts language probe id ⟨start, 0, .base, retval.typeName⟩ fields
  | .struct | .void => False

variable {m : Machine} {facts : Facts} {language : Language}

theorem HasResult.of_prefix {probe next : Physical.Probe} {retval : RetValInfo}
    {start : Int} {id : String} {fields : List String} (h : probe.vars <+: next.vars)
    (hresult : m.HasResult facts language probe retval start id fields) :
    m.HasResult facts language next retval start id fields := by
  unfold HasResult at hresult ⊢
  split at hresult
  next => exact lookup_evaluate_of_prefix h hresult
  next => exact ReadsReference.of_prefix h hresult
  next => exact hresult
  next => exact hresult

theorem lookup_returnRegister (m : Machine) {language : Language} {tracepoint : TracePoint}
    (hlanguage : language.returnsInRegister) (hreturn : tracepoint.isReturn) :
    (m.evaluate (Scope.specialVariables language tracepoint)).lookup
      returnRegisterVariable = some m.returnRegister := by
  have hgo : language ≠ .go := by
    rintro rfl
    contradiction
  simp only [Scope.specialVariables, hgo, if_false, hlanguage, hreturn, Bool.and_self, if_true]
  rfl

theorem referenceRead_pointer (memory : Int → Int) (address : Int) (typeName : String)
    (fields : List String) :
    referenceRead facts language memory ⟨address, 0, .pointer, typeName⟩ fields =
      referenceRead facts language memory ⟨memory address, 0, .base, typeName⟩ fields := by
  cases fields <;> rfl

theorem loadsFit_pointer {memory : Int → Int} {address : Int} {typeName : String}
    {fields : List String}
    (h : (⟨memory address, 0, .base, typeName⟩ : Place).LoadsFit facts memory fields) :
    (⟨address, 0, .pointer, typeName⟩ : Place).LoadsFit facts memory fields := by
  cases fields with
  | nil => exact h
  | cons field rest => exact ⟨fun _ => (by decide : FitsInt64 0), h.2⟩

end Machine

section Results

variable {m : Machine} {setting : Setting} {s t : Scope}

theorem hasResult_of_lowerRegisterReturn {id : String} {fields : List String}
    (hs : s.Consistent)
    (hrc : (m.evaluate s.probe.vars).lookup returnRegisterVariable =
      some m.returnRegister)
    (h : (lowerRegisterReturn setting id fields).runFrom s = (.ok (), t)) :
    m.HasResult setting.facts setting.language t.probe setting.retval
      (m.memory m.returnRegister) id fields := by
  unfold lowerRegisterReturn at h
  unfold Machine.HasResult
  dsimp only at h
  split at h
  next hkind =>
    rw [hkind]
    obtain ⟨type, _, hquery, hadd⟩ := Step.runFrom_bind_ok.mp h
    obtain ⟨-, rfl⟩ := Prod.mk.inj hquery
    rw [Scope.probe_of_addVariable hadd]
    exact Machine.lookup_evaluate_concat (v := .scalar ⟨id, type, .register .rc⟩)
      (Scope.fresh_of_addVariable hs hadd) rfl
  next hkind =>
    rw [hkind]
    obtain ⟨_, _, hget, h⟩ := Step.runFrom_bind_ok.mp h
    cases hget
    split at h
    next =>
      obtain ⟨address, type, reference, href, hreads, hexact, hword⟩ :=
        reads_of_lowerAccessChain ⟨.returnRegister, 0, .pointer, setting.retval.typeName⟩ hs hrc h
      have hplace : Place.ofRoot m.returnRegister
          ⟨.returnRegister, 0, .pointer, setting.retval.typeName⟩ =
            ⟨m.returnRegister, 0, .pointer, setting.retval.typeName⟩ := by
        simp [Place.ofRoot, RootBase.adjustment]
      rw [hplace] at href hexact
      rw [Machine.referenceRead_pointer] at href
      exact ⟨address, type, reference, href, hreads,
        fun hfit => hexact (Machine.loadsFit_pointer hfit), hword⟩
    next => cases h
  next => cases h
  next => cases h

theorem lowerReturnValue_register_ok {value : Logical.ReturnValue}
    (hlanguage : setting.language.returnsInRegister)
    (h : (lowerReturnValue setting value).runFrom s = (.ok (), t)) :
    ∃ expr, Expression.parse? value.expr = some expr ∧
      Expression.returnIndex? expr.root = some 0 ∧
      (lowerRegisterReturn setting value.id expr.fields).runFrom s = (.ok (), t) := by
  unfold lowerReturnValue at h
  split at h
  next => cases h
  next expr hexpr =>
    split at h
    next => cases h
    next index hindex =>
      cases hcase : setting.language with
      | go | unknown =>
          rw [hcase] at hlanguage
          contradiction
      | c | cpp =>
          simp only [hcase] at h
          split at h
          next hzero => exact ⟨expr, hexpr, hzero ▸ hindex, h⟩
          next => cases h

end Results

/--
In a return probe of C or C++ every result of base kind is the value of the return
register.  A result of pointer kind is read from where the word at the address in the
return register points, so that there is one load more than from the result itself.
-/
theorem results_read_behind_register {facts : Facts} {language : Language}
    {input : Logical.Probe} {w v : Workspace} {probe : Physical.Probe}
    (h : w.lowerProbe facts language input = (.ok probe, v))
    (hlanguage : language.returnsInRegister) (hreturn : input.tracepoint.isReturn)
    (m : Machine) :
    ∃ retval, facts.retval input.tracepoint.symbol = .ok retval ∧
      ∀ value ∈ input.retVals, ∃ expr, Expression.parse? value.expr = some expr ∧
        Expression.returnIndex? expr.root = some 0 ∧
        m.HasResult facts language probe retval (m.memory m.returnRegister) value.id
          expr.fields := by
  obtain ⟨setting, b, hsetting, hrun, rfl, -⟩ := Workspace.lowerProbe_ok.mp h
  obtain ⟨rfl, rfl, -, hretval⟩ := Setting.ofSymbol_ok.mp hsetting
  refine ⟨setting.retval, hretval, fun value hvalue => ?_⟩
  have hmem : Build.onScope (lowerReturnValue setting value) ∈
      Build.valueParts setting input := by
    simp only [Build.valueParts, List.mem_append, List.mem_map]
    exact .inr ⟨value, hvalue, rfl⟩
  obtain ⟨s, t, hs, hspecial, hstep, hprefix⟩ := exists_run_after_special hmem hrun
  have hrc := Machine.lookup_evaluate_of_prefix hspecial
    (m.lookup_returnRegister hlanguage hreturn)
  obtain ⟨expr, hexpr, hindex, hregister⟩ := lowerReturnValue_register_ok hlanguage hstep
  have hresult := hasResult_of_lowerRegisterReturn hs hrc hregister
  exact ⟨expr, hexpr, hindex, hresult.of_prefix hprefix⟩

def makeFacts : Facts :=
  ((({} : Snapshot).withRetval "make" ⟨.pointer, "conn"⟩).withMember
    "conn" "fd" ⟨12, .base, "int"⟩).facts

def makeReturn : Logical.Probe where
  name := "make_return"
  tracepoint := ⟨"make", .onReturn⟩
  retVals := [⟨"fd", "$0.fd"⟩]

def makeProbe : Physical.Probe where
  name := "make_return"
  tracepoint := ⟨"make", .onReturn⟩
  vars := Scope.specialVariables .c ⟨"make", .onReturn⟩ ++
    [.scalar ⟨"fd_X_", .voidPointer, .memory "rc_" 0⟩,
      .scalar ⟨"fd", .int, .memory "fd_X_" 12⟩]

theorem lowerProbe_makeReturn :
    ({} : Workspace).lowerProbe makeFacts .c makeReturn = (.ok makeProbe, {}) := by
  decide +kernel

theorem makeFields_fit (memory : Int → Int) (start : Int) :
    (⟨start, 0, .base, "conn"⟩ : Place).LoadsFit makeFacts memory ["fd"] := by
  refine ⟨fun _ => (by decide : FitsInt64 0), ?_⟩
  rintro _ ⟨⟩
  exact (by decide : FitsInt64 12)

theorem results_read_behind_register_makeReturn :
    ({} : Workspace).lowerProbe makeFacts .c makeReturn = (.ok makeProbe, {}) ∧
      ∀ m : Machine, m.Reads makeProbe "fd" (m.memory m.returnRegister + 12) .int := by
  refine ⟨lowerProbe_makeReturn, fun m => ?_⟩
  obtain ⟨retval, hretval, hresults⟩ :=
    results_read_behind_register lowerProbe_makeReturn rfl rfl m
  obtain ⟨expr, hexpr, -, hresult⟩ := hresults ⟨"fd", "$0.fd"⟩ (by simp [makeReturn])
  cases hretval
  cases hexpr
  obtain ⟨address, type, reference, href, hreads, hexact, -⟩ := hresult
  cases href
  rw [hexact (makeFields_fit _ _)] at hreads
  exact hreads

/-- The register holds 64, and the word at each address is the next address. -/
def nextMachine : Machine where
  stackPointer := 0
  returnRegister := 64
  memory address := address + 1
  builtin _ := 0
  constant _ _ := 0
  entry _ _ := 0
  field _ _ := 0

theorem exists_result_behind_register :
    ({} : Workspace).lowerProbe makeFacts .c makeReturn = (.ok makeProbe, {}) ∧
      ¬ nextMachine.HasResult makeFacts .c makeProbe ⟨.pointer, "conn"⟩
        nextMachine.returnRegister "fd" ["fd"] := by
  refine ⟨lowerProbe_makeReturn, ?_⟩
  rintro ⟨address, type, reference, href, hreads, hexact, -⟩
  cases href
  rw [hexact (makeFields_fit _ _)] at hreads
  have hloaded : (nextMachine.evaluate makeProbe.vars).lookup "fd" = some 78 := by
    decide +kernel
  have hexpected : some (nextMachine.memory (nextMachine.returnRegister + 12)) = some 78 :=
    hreads.value.symm.trans hloaded
  contradiction

end ProbeLowering
