import ProbeLowering.Proofs.Evaluation
import ProbeLowering.Proofs.Itinerary
import ProbeLowering.Proofs.Run

/-!
# What expressions read

A reference walk follows the fields of an expression through memory, from one address to
the next, without variables and with exact sums.  The loads of the lowered probe keep a base
variable and an offset of 64 bits instead.  `Place.ReachedFrom` says how far the two are at
the same place: exactly while the offsets that are loaded from fit, and at the same word of
a machine whose addresses wrap around in any case.  Each load and each member keeps this,
and so the variable of an expression reads what the reference walk comes to
(`expressions_read_reference`).
-/

namespace ProbeLowering

open DebugInfo
open Physical (Variable)

structure Place where
  address : Int
  /-- What was added to come here since the last load. -/
  offset : Int
  kind : VarKind
  typeName : String
  deriving DecidableEq, Repr

namespace Place

def ofRoot (start : Int) (root : ExprRoot) : Place where
  address := start + root.base.adjustment + root.offset
  offset := root.offset + root.base.adjustment
  kind := root.kind
  typeName := root.typeName

def ofArg (stackPointer : Int) (info : ArgInfo) : Place :=
  ⟨stackPointer + 8 + info.offset, info.offset + 8, info.kind, info.typeName⟩

def load (memory : Int → Int) (place : Place) : Place :=
  { place with address := memory place.address, offset := 0 }

def pointee (memory : Int → Int) (place : Place) : Place :=
  if place.kind = .pointer then place.load memory else place

def memberAt (place : Place) (info : MemberInfo) : Place :=
  ⟨place.address + info.offset, place.offset + info.offset, info.kind, info.typeName⟩

def member (facts : Facts) (memory : Int → Int) (place : Place) (field : String) :
    Except LookupError Place :=
  match facts.member place.typeName field with
  | .error e => .error e
  | .ok info => .ok ((place.pointee memory).memberAt info)

def members (facts : Facts) (memory : Int → Int) (place : Place) :
    List String → Except LookupError Place
  | [] => .ok place
  | field :: rest =>
      match place.member facts memory field with
      | .error e => .error e
      | .ok next => next.members facts memory rest

def target (memory : Int → Int) (place : Place) : Place :=
  if place.kind = .pointer then { place.load memory with kind := .base } else place

/-- On the way along `fields` every offset that is loaded from fits in 64 bits. -/
def LoadsFit (facts : Facts) (memory : Int → Int) (place : Place) : List String → Prop
  | [] => FitsInt64 place.offset
  | field :: rest =>
      (place.kind = .pointer → FitsInt64 place.offset) ∧
        ∀ next, place.member facts memory field = .ok next → next.LoadsFit facts memory rest

end Place

def referenceRead (facts : Facts) (language : Language) (memory : Int → Int)
    (place : Place) (fields : List String) : Except LowerError (Int × ScalarType) :=
  match place.members facts memory fields with
  | .error e => .error (.debugInfo e)
  | .ok last =>
      let target := last.target memory
      match resolveScalarType language target.kind target.typeName with
      | .error e => .error e
      | .ok type => .ok (target.address, type)

/-- Addresses are words, so what a sum leaves of one is what counts. -/
def Machine.Wraps (m : Machine) : Prop :=
  ∀ address, m.memory (wrapInt64 address) = m.memory address

/--
The variable `id` reads what the reference walk from `place` comes to: at the same address,
if the offsets on the way fit, and else at the same word of a machine that wraps around.
-/
def Machine.ReadsReference (m : Machine) (facts : Facts) (language : Language)
    (probe : Physical.Probe) (id : String) (place : Place) (fields : List String) :
    Prop :=
  ∃ address type reference,
    referenceRead facts language m.memory place fields = .ok (reference, type) ∧
    m.Reads probe id address type ∧
    (place.LoadsFit facts m.memory fields → address = reference) ∧
    (m.Wraps → wrapInt64 address = wrapInt64 reference)

theorem Machine.ReadsReference.of_prefix {m : Machine} {facts : Facts}
    {language : Language} {probe next : Physical.Probe} {id : String} {place : Place}
    {fields : List String} (h : probe.vars <+: next.vars)
    (hreads : m.ReadsReference facts language probe id place fields) :
    m.ReadsReference facts language next id place fields := by
  obtain ⟨address, type, reference, href, hread, hsame⟩ := hreads
  exact ⟨address, type, reference, href, hread.of_prefix h, hsame⟩

/-! ## Loads and places -/

namespace Place

/-- The walk of names has come to the stop, with `offset` bytes since the load before it. -/
structure IsAt (place : Place) (stop : Stop) (offset : Int) : Prop where
  kind : place.kind = stop.kind
  typeName : place.typeName = stop.typeName
  offset : place.offset = offset + stop.distance

/-- What `base` holds, plus the offset of the place, is its address, if the loads fit so far. -/
def ReachedFrom (m : Machine) (s : Scope) (base : String) (fits : Prop) (place : Place) :
    Prop :=
  ∃ start, (m.evaluate s.probe.vars).lookup base = some start ∧
    (fits → start + place.offset = place.address) ∧
    (m.Wraps → wrapInt64 (start + place.offset) = wrapInt64 place.address)

variable {m : Machine} {facts : Facts} {language : Language} {s t : Scope} {stop : Stop}
  {place : Place} {base : String} {offset : Int} {fits : Prop}

theorem ReachedFrom.reads {name : String} {type : ScalarType} (hs : s.Consistent)
    (hreached : place.ReachedFrom m s base fits)
    (h : s.Declares t [.scalar ⟨name, type, .memory base (wrapInt64 place.offset)⟩]) :
    ∃ address, m.Reads t.probe name address type ∧
      (fits ∧ FitsInt64 place.offset → address = place.address) ∧
      (m.Wraps → wrapInt64 address = wrapInt64 place.address) := by
  obtain ⟨start, hstart, hexact, hword⟩ := hreached
  have hadd := Scope.runFrom_addVariable_ok_iff.mpr h
  have hvars : t.probe.vars =
      s.probe.vars ++ [.scalar ⟨name, type, .memory base (wrapInt64 place.offset)⟩] := by
    rw [h.probe]
  refine ⟨start + wrapInt64 place.offset,
    Machine.reads_of_concat hvars (Scope.fresh_of_addVariable hs hadd) hstart, ?_, ?_⟩
  · rintro ⟨hfits, hoffset⟩
    rw [wrapInt64_eq_iff.mpr hoffset, hexact hfits]
  · intro hwraps
    rw [wrapInt64_add_wrapInt64, hword hwraps]

theorem ReachedFrom.pointee (hs : s.Consistent) (hat : place.IsAt stop offset)
    (hreached : place.ReachedFrom m s base fits)
    (h : s.Declares t (stop.crossing base offset)) :
    (place.pointee m.memory).offset = stop.exitOffset offset ∧
      (place.pointee m.memory).ReachedFrom m t (stop.exitBase base)
        (fits ∧ (place.kind = .pointer → FitsInt64 place.offset)) := by
  obtain ⟨hkind, -, hoffset⟩ := hat
  by_cases hpointer : place.kind = .pointer
  · have hstop : stop.isPointer := by simp [Stop.isPointer, ← hkind, hpointer]
    rw [Stop.crossing, if_pos hstop, ← hoffset] at h
    obtain ⟨address, hreads, hexact, hword⟩ := hreached.reads hs h
    simp only [Place.pointee, hpointer, if_true, forall_const, Stop.exitOffset, Stop.exitBase,
      hstop]
    refine ⟨rfl, m.memory address, hreads.value, fun hfits => ?_, fun hwraps => ?_⟩
    · simp [load, hexact hfits]
    · have hloaded : m.memory address = m.memory place.address := by
        rw [← hwraps address, hword hwraps, hwraps]
      simp [load, hloaded]
  · have hstop : stop.isPointer = false := by simp [Stop.isPointer, ← hkind, hpointer]
    simp only [Stop.crossing, hstop, Bool.false_eq_true, if_false] at h
    cases Scope.declares_nil.mp h
    simpa [Place.pointee, hpointer, Stop.exitOffset, Stop.exitBase, hstop, hoffset] using hreached

theorem ReachedFrom.memberAt (hreached : place.ReachedFrom m s base fits) (info : MemberInfo) :
    (place.memberAt info).ReachedFrom m s base fits := by
  obtain ⟨start, hstart, hexact, hword⟩ := hreached
  refine ⟨start, hstart, fun hfits => ?_, fun hwraps => ?_⟩
  · simp only [Place.memberAt]
    rw [← Int.add_assoc, hexact hfits]
  · simp only [Place.memberAt]
    rw [← Int.add_assoc]
    exact wrapInt64_add_right (hword hwraps) _

theorem address_target (place : Place) (memory : Int → Int) :
    (place.target memory).address = (place.pointee memory).address := by
  unfold target Place.pointee
  split <;> rfl

theorem IsAt.targetType (hat : place.IsAt stop offset) (memory : Int → Int) :
    resolveScalarType language (place.target memory).kind (place.target memory).typeName =
      stop.targetType language := by
  rw [Stop.targetType, ← hat.kind, ← hat.typeName]
  unfold target load
  split <;> rfl

theorem fitsInt64_pointee (memory : Int → Int) (h : FitsInt64 place.offset) :
    FitsInt64 (place.pointee memory).offset := by
  unfold Place.pointee load
  split
  · exact (by decide : FitsInt64 0)
  · exact h

theorem member_of_isAt {field : String} {info : MemberInfo} (hat : place.IsAt stop offset)
    (h : facts.member stop.typeName field = .ok info) (memory : Int → Int) :
    place.member facts memory field = .ok ((place.pointee memory).memberAt info) := by
  rw [member, hat.typeName, h]

/-- By induction on the fields, with the stop, its place and the variables generalized. -/
theorem exists_reads_of_loadsAlong {id : String} {type : ScalarType} {fields : List String}
    {later : List Stop} (hs : s.Consistent) (hat : place.IsAt stop offset)
    (hreached : place.ReachedFrom m s base fits)
    (hbehind : stop.behind facts fields = .ok later)
    (htype : (later.getLastD stop).targetType language = .ok type)
    (h : s.Declares t (Stop.loadsAlong id type base offset (stop :: later))) :
    ∃ address reference,
      referenceRead facts language m.memory place fields = .ok (reference, type) ∧
      m.Reads t.probe id address type ∧
      (fits ∧ place.LoadsFit facts m.memory fields → address = reference) ∧
      (m.Wraps → wrapInt64 address = wrapInt64 reference) := by
  induction fields generalizing s stop place base offset fits later with
  | nil =>
      cases hbehind
      obtain ⟨u, hcrossed, hvalue⟩ := Scope.declares_append.mp h
      obtain ⟨hoffset, hpointee⟩ := hreached.pointee hs hat hcrossed
      rw [Stop.loadsAlong, ← hoffset] at hvalue
      obtain ⟨address, hreads, hexact, hword⟩ :=
        hpointee.reads (hcrossed.consistent hs) hvalue
      have href : referenceRead facts language m.memory place [] =
          .ok ((place.pointee m.memory).address, type) := by
        rw [List.getLastD_nil, ← hat.targetType m.memory] at htype
        simp [referenceRead, members, htype, address_target]
      refine ⟨address, _, href, hreads, ?_, hword⟩
      rintro ⟨hfits, hlast⟩
      exact hexact ⟨⟨hfits, fun _ => hlast⟩, fitsInt64_pointee m.memory hlast⟩
  | cons field rest ih =>
      obtain ⟨info, further, hmember, hfurther, rfl⟩ := Stop.behind_cons_ok.mp hbehind
      obtain ⟨u, hcrossed, hrest⟩ := Scope.declares_append.mp h
      obtain ⟨hoffset, hpointee⟩ := hreached.pointee hs hat hcrossed
      have hnext : ((place.pointee m.memory).memberAt info).IsAt (stop.enter field info)
          (stop.exitOffset offset) := ⟨rfl, rfl, by rw [← hoffset]; rfl⟩
      have hfound := member_of_isAt hat hmember m.memory
      rw [List.getLastD_cons] at htype
      obtain ⟨address, reference, href, hreads, hexact, hword⟩ :=
        ih (hcrossed.consistent hs) hnext (hpointee.memberAt info) hfurther htype hrest
      refine ⟨address, reference, ?_, hreads, ?_, hword⟩
      · rw [referenceRead, members, hfound]
        exact href
      · rintro ⟨hfits, hpointer, hlater⟩
        exact hexact ⟨⟨hfits, hpointer⟩, hlater _ hfound⟩

end Place

/-! ## Expressions -/

section Expressions

variable {m : Machine} {setting : Setting} {s t : Scope}

theorem reads_of_lowerAccessChain {id : String} (root : ExprRoot) {fields : List String}
    {start : Int} (hs : s.Consistent)
    (hstart : (m.evaluate s.probe.vars).lookup root.base.variableName = some start)
    (h : (lowerAccessChain setting id root fields).runFrom s = (.ok (), t)) :
    m.ReadsReference setting.facts setting.language t.probe id (.ofRoot start root) fields := by
  obtain ⟨later, type, hbehind, htype, hdeclares⟩ := lowerAccessChain_ok_iff.mp h
  rw [Stop.loads_eq] at hdeclares
  have hat : (Place.ofRoot start root).IsAt (.ofRoot id root) 0 :=
    ⟨rfl, rfl, (Int.zero_add _).symm⟩
  have haddress : start + (Place.ofRoot start root).offset = (Place.ofRoot start root).address := by
    simp only [Place.ofRoot]
    omega
  have hreached : (Place.ofRoot start root).ReachedFrom m s root.base.variableName True :=
    ⟨start, hstart, fun _ => haddress, fun _ => by rw [haddress]⟩
  obtain ⟨address, reference, href, hreads, hexact, hword⟩ :=
    Place.exists_reads_of_loadsAlong hs hat hreached hbehind htype hdeclares
  exact ⟨address, type, reference, href, hreads, fun hfit => hexact ⟨trivial, hfit⟩, hword⟩

theorem argInfo_ok {name : String} {info : ArgInfo}
    (h : (setting.argInfo name).runFrom s = (.ok info, t)) :
    setting.args.get? name = some info ∧ s = t := by
  unfold Setting.argInfo at h
  cases hinfo : setting.args.get? name with
  | none => simp [hinfo] at h
  | some found => simpa [hinfo] using h

variable (hs : s.Consistent)
  (hsp : (m.evaluate s.probe.vars).lookup stackPointerVariable = some m.stackPointer)

include hs hsp

theorem reads_of_lowerArgument {arg : Logical.Argument}
    (h : (lowerArgument setting arg).runFrom s = (.ok (), t)) :
    ∃ expr info, Expression.parse? arg.expr = some expr ∧
      setting.args.get? expr.root = some info ∧
      m.ReadsReference setting.facts setting.language t.probe arg.id
        (.ofArg m.stackPointer info) expr.fields := by
  unfold lowerArgument at h
  split at h
  next => cases h
  next expr hexpr =>
    obtain ⟨info, _, hquery, hchain⟩ := Step.runFrom_bind_ok.mp h
    obtain ⟨hinfo, rfl⟩ := argInfo_ok hquery
    exact ⟨expr, info, hexpr, hinfo,
      reads_of_lowerAccessChain (.stack info) hs hsp hchain⟩

theorem reads_of_lowerReturnValue {value : Logical.ReturnValue}
    (hgo : setting.language = .go)
    (h : (lowerReturnValue setting value).runFrom s = (.ok (), t)) :
    ∃ expr index info, Expression.parse? value.expr = some expr ∧
      Expression.returnIndex? expr.root = some index ∧
      setting.args.get? (goReturnSlot index) = some info ∧
      m.ReadsReference setting.facts setting.language t.probe value.id
        (.ofArg m.stackPointer info) expr.fields := by
  unfold lowerReturnValue at h
  split at h
  next => cases h
  next expr hexpr =>
    split at h
    next => cases h
    next index hindex =>
      simp only [hgo] at h
      obtain ⟨info, _, hquery, hchain⟩ := Step.runFrom_bind_ok.mp h
      obtain ⟨hinfo, rfl⟩ := argInfo_ok hquery
      exact ⟨expr, index, info, hexpr, hindex, hinfo,
        reads_of_lowerAccessChain (.stack info) hs hsp hchain⟩

end Expressions

theorem lookup_stackPointer (m : Machine) (language : Language)
    (tracepoint : TracePoint) :
    (m.evaluate (Scope.specialVariables language tracepoint)).lookup
      stackPointerVariable = some m.stackPointer := by
  have hfirst : [Variable.scalar ⟨stackPointerVariable, .voidPointer, .register .sp⟩] <+:
      Scope.specialVariables language tracepoint := by
    simp [Scope.specialVariables]
  exact Machine.lookup_evaluate_of_prefix hfirst rfl

theorem exists_run_after_special {setting : Setting} {input : Logical.Probe}
    {w : Workspace} {b : Build} {step : Step Scope Unit}
    (hmem : Build.onScope step ∈ Build.valueParts setting input)
    (hrun : (Step.sequence (Build.parts setting input)).runFrom
      ⟨w, Scope.start input.name input.tracepoint⟩ = (.ok (), b)) :
    ∃ s t, s.Consistent ∧
      Scope.specialVariables setting.language input.tracepoint <+: s.probe.vars ∧
      step.runFrom s = (.ok (), t) ∧ t.probe.vars <+: b.scope.probe.vars := by
  obtain ⟨s, t, t', hspecial, hextends, hstep, hafter⟩ :=
    Build.exists_run_of_mem_valueParts hmem hrun
  have hs : s.Consistent := by
    have hkeeps := Scope.keeps_addSpecialVariables (P := fun _ => True)
      (fun _ => trivial) setting.language
    exact (hkeeps.of_run hspecial).consistent (Scope.consistent_start _ _)
  have hvars : Scope.specialVariables setting.language input.tracepoint = s.probe.vars := by
    rw [Scope.probe_of_addSpecialVariables hspecial]
    rfl
  exact ⟨t.scope, t'.scope, hextends.consistent hs, hvars ▸ hextends.vars_prefix,
    (Build.runFrom_onScope_ok.mp hstep).1, hafter.vars_prefix⟩

theorem exists_run_of_value {m : Machine} {setting : Setting} {input : Logical.Probe}
    {w : Workspace} {b : Build} {step : Step Scope Unit}
    (hmem : Build.onScope step ∈ Build.valueParts setting input)
    (hrun : (Step.sequence (Build.parts setting input)).runFrom
      ⟨w, Scope.start input.name input.tracepoint⟩ = (.ok (), b)) :
    ∃ s t, s.Consistent ∧
      (m.evaluate s.probe.vars).lookup stackPointerVariable = some m.stackPointer ∧
      step.runFrom s = (.ok (), t) ∧ t.probe.vars <+: b.scope.probe.vars := by
  obtain ⟨s, t, hs, hspecial, hstep, hafter⟩ := exists_run_after_special hmem hrun
  exact ⟨s, t, hs, Machine.lookup_evaluate_of_prefix hspecial
    (lookup_stackPointer m setting.language input.tracepoint), hstep, hafter⟩

/--
In a lowered probe the variable of every argument expression, and in Go of every
result expression, reads the address that the reference walk comes to, with the
scalar type of the value there.
-/
theorem expressions_read_reference {facts : Facts} {language : Language}
    {input : Logical.Probe} {w v : Workspace} {probe : Physical.Probe}
    (h : w.lowerProbe facts language input = (.ok probe, v)) (m : Machine) :
    ∃ args, facts.args input.tracepoint.symbol = .ok args ∧
      (∀ arg ∈ input.args, ∃ expr info, Expression.parse? arg.expr = some expr ∧
        args.get? expr.root = some info ∧
        m.ReadsReference facts language probe arg.id
          (.ofArg m.stackPointer info) expr.fields) ∧
      (language = .go → ∀ value ∈ input.retVals, ∃ expr index info,
        Expression.parse? value.expr = some expr ∧
        Expression.returnIndex? expr.root = some index ∧
        args.get? (goReturnSlot index) = some info ∧
        m.ReadsReference facts language probe value.id
          (.ofArg m.stackPointer info) expr.fields) := by
  obtain ⟨setting, b, hsetting, hrun, rfl, -⟩ := Workspace.lowerProbe_ok.mp h
  obtain ⟨rfl, rfl, hargs, -⟩ := Setting.ofSymbol_ok.mp hsetting
  refine ⟨setting.args, hargs, fun arg harg => ?_, fun hgo value hvalue => ?_⟩
  · have hmem : Build.onScope (lowerArgument setting arg) ∈
        Build.valueParts setting input := by
      simp only [Build.valueParts, List.mem_append, List.mem_map]
      exact .inl (.inr ⟨arg, harg, rfl⟩)
    obtain ⟨s, t, hs, hsp, hstep, hprefix⟩ := exists_run_of_value (m := m) hmem hrun
    obtain ⟨expr, info, hexpr, hinfo, hreads⟩ := reads_of_lowerArgument hs hsp hstep
    exact ⟨expr, info, hexpr, hinfo, hreads.of_prefix hprefix⟩
  · have hmem : Build.onScope (lowerReturnValue setting value) ∈
        Build.valueParts setting input := by
      simp only [Build.valueParts, List.mem_append, List.mem_map]
      exact .inr ⟨value, hvalue, rfl⟩
    obtain ⟨s, t, hs, hsp, hstep, hprefix⟩ := exists_run_of_value (m := m) hmem hrun
    obtain ⟨expr, index, info, hexpr, hindex, hinfo, hreads⟩ :=
      reads_of_lowerReturnValue hs hsp hgo hstep
    exact ⟨expr, index, info, hexpr, hindex, hinfo, hreads.of_prefix hprefix⟩

theorem expressions_read_reference_callReturn :
    ∃ probe v, callWorkspace.lowerProbe callFacts .go callReturn = (.ok probe, v) ∧
      ∀ m : Machine,
        m.Reads probe "id" (m.memory (m.stackPointer + 8 + 0) + 8) .int64 ∧
        m.Reads probe "status" (m.stackPointer + 8 + 16) .int32 := by
  obtain ⟨probe, v, h⟩ := exists_lowerProbe_callReturn
  refine ⟨probe, v, h, fun m => ?_⟩
  obtain ⟨args, hargs, harg, hresult⟩ := expressions_read_reference h m
  cases hargs
  constructor
  · obtain ⟨expr, info, hexpr, hinfo, address, type, reference, href, hreads, hexact, -⟩ :=
      harg ⟨"id", "req.id"⟩ (by decide)
    cases hexpr
    cases hinfo
    cases href
    have hmember : ∀ next, Place.member callFacts m.memory
        (.ofArg m.stackPointer ⟨0, .pointer, "main.Request"⟩) "id" = .ok next →
          next.LoadsFit callFacts m.memory [] := by
      rintro _ ⟨⟩
      exact (by decide : FitsInt64 8)
    rw [hexact ⟨fun _ => (by decide : FitsInt64 8), hmember⟩] at hreads
    exact hreads
  · obtain ⟨expr, index, info, hexpr, hindex, hinfo, address, type, reference, href, hreads,
        hexact, -⟩ :=
      hresult rfl ⟨"status", "$0"⟩ (by decide)
    cases hexpr
    cases hindex
    cases hinfo
    cases href
    rw [hexact (by decide : FitsInt64 24)] at hreads
    exact hreads

end ProbeLowering
