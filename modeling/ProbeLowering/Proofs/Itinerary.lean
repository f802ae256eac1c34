import Mathlib.Data.List.Defs
import ProbeLowering.DebugInfo.Snapshot
import ProbeLowering.Proofs.Scope

/-!
# Itineraries

The fields of an expression lead from one value to the next, whatever the variables are
called (`Stop.behind`).  Lowering an access chain declares one load for each pointer among
these stops and one for the value at the end, and it succeeds exactly if the stops and the
type at the end are known and the names of the loads are new (`accessChain_shape`).
-/

namespace ProbeLowering

open DebugInfo
open Physical (Variable ScalarSource)

namespace Scope

structure Declares (s t : Scope) (block : List Variable) : Prop where
  symbols : t.symbols.entries =
    s.symbols.entries ++ block.map fun v => (v.name, symbolOf v)
  probe : t.probe = { s.probe with vars := s.probe.vars ++ block }

variable {s t : Scope} {block : List Variable}

/-- Names in a table differ, so variables can be declared if their names differ and are new. -/
theorem exists_declares_iff :
    (∃ t, s.Declares t block) ↔
      (∀ v ∈ block, s.symbols.contains v.name = false) ∧ (block.map Variable.name).Nodup := by
  have hnames : (s.symbols.entries ++ block.map fun v => (v.name, symbolOf v)).map Prod.fst =
      s.symbols.entries.map Prod.fst ++ block.map Variable.name := by
    simp
  have hnodup : ((s.symbols.entries ++ block.map fun v => (v.name, symbolOf v)).map
      Prod.fst).Nodup ↔ (∀ v ∈ block, s.symbols.contains v.name = false) ∧
        (block.map Variable.name).Nodup := by
    have hold := s.symbols.nodup
    rw [hnames, List.nodup_append]
    simp only [hold, true_and, SymbolTable.contains, decide_eq_false_iff_not, List.mem_map,
      forall_exists_index, and_imp]
    grind
  rw [← hnodup]
  constructor
  · rintro ⟨t, ht⟩
    rw [← ht.symbols]
    exact t.symbols.nodup
  · intro h
    exact ⟨⟨⟨_, h⟩, { s.probe with vars := s.probe.vars ++ block }⟩, rfl, rfl⟩

theorem Declares.consistent (h : s.Declares t block) (hs : s.Consistent) : t.Consistent := by
  unfold Consistent at hs ⊢
  simp [h.symbols, h.probe, hs]

theorem declares_nil : s.Declares t [] ↔ s = t := by
  constructor
  · rintro ⟨hsymbols, hprobe⟩
    obtain ⟨⟨entries, hentries⟩, probe⟩ := s
    obtain ⟨⟨entries', hentries'⟩, probe'⟩ := t
    simp_all
  · rintro rfl
    exact ⟨by simp, by simp⟩

theorem declares_append {later : List Variable} :
    s.Declares t (block ++ later) ↔ ∃ u, s.Declares u block ∧ u.Declares t later := by
  constructor
  · intro h
    obtain ⟨hnew, hnames⟩ := exists_declares_iff.mp ⟨t, h⟩
    rw [List.map_append, List.nodup_append] at hnames
    obtain ⟨u, hu⟩ := exists_declares_iff.mpr
      ⟨fun v hv => hnew v (List.mem_append_left _ hv), hnames.1⟩
    refine ⟨u, hu, ?_, ?_⟩
    · rw [h.symbols, hu.symbols, List.map_append, List.append_assoc]
    · simp [h.probe, hu.probe]
  · rintro ⟨u, hu, ht⟩
    refine ⟨?_, ?_⟩
    · rw [ht.symbols, hu.symbols, List.map_append, List.append_assoc]
    · simp [ht.probe, hu.probe]

theorem runFrom_addVariable_ok_iff {v : Variable} :
    (addVariable v).runFrom s = (.ok (), t) ↔ s.Declares t [v] := by
  rw [runFrom_addVariable_ok, add_ok]
  constructor
  · rintro ⟨-, hsymbols, hprobe⟩
    exact ⟨hsymbols, hprobe⟩
  · intro h
    have hnew := (exists_declares_iff.mp ⟨t, h⟩).1 v List.mem_cons_self
    exact ⟨by simpa [SymbolTable.contains] using hnew, h.symbols, h.probe⟩

end Scope

/-- A value on the way of an expression. -/
structure Stop where
  /-- Bytes from the stop before, or from where that one points. -/
  distance : Int
  kind : VarKind
  typeName : String
  path : AccessPath
  deriving DecidableEq, Repr

namespace Stop

def ofRoot (id : String) (root : ExprRoot) : Stop :=
  ⟨root.offset + root.base.adjustment, root.kind, root.typeName, { root := id }⟩

def isPointer (stop : Stop) : Bool := stop.kind == .pointer

def exit (stop : Stop) : AccessPath :=
  if stop.isPointer then stop.path.push .deref else stop.path

def enter (stop : Stop) (field : String) (info : MemberInfo) : Stop :=
  ⟨info.offset, info.kind, info.typeName, stop.exit.push (.field field)⟩

/-- The stops that `fields` lead to, each a member of the type of the one before. -/
def behind (facts : Facts) (stop : Stop) : List String → Except LookupError (List Stop)
  | [] => .ok []
  | field :: rest =>
      match facts.member stop.typeName field with
      | .error e => .error e
      | .ok info =>
          match (stop.enter field info).behind facts rest with
          | .error e => .error e
          | .ok later => .ok (stop.enter field info :: later)

theorem behind_cons_ok {facts : Facts} {stop : Stop} {field : String} {rest : List String}
    {later : List Stop} :
    stop.behind facts (field :: rest) = .ok later ↔
      ∃ info further, facts.member stop.typeName field = .ok info ∧
        (stop.enter field info).behind facts rest = .ok further ∧
        later = stop.enter field info :: further := by
  rw [behind]
  cases facts.member stop.typeName field with
  | error e => simp
  | ok info =>
      cases hfurther : (stop.enter field info).behind facts rest <;> simp [hfurther, eq_comm]

def targetType (language : Language) (stop : Stop) : Except LowerError ScalarType :=
  resolveScalarType language (if stop.kind = .pointer then .base else stop.kind) stop.typeName

/-! ## Loads and moves -/

def pointerNames (stops : List Stop) : List String :=
  (stops.filter isPointer).map (·.exit.display)

/-- The stops up to each pointer, and those behind the last one. -/
def legs : List Stop → List (List Stop)
  | [] => [[]]
  | stop :: rest =>
      if stop.isPointer then [stop] :: legs rest
      else match legs rest with
        | [] => [[stop]]
        | leg :: more => (stop :: leg) :: more

def length : List Stop → Int
  | [] => 0
  | stop :: leg => stop.distance + length leg

/--
One load for each pointer and one for the value at the end, each from the one before.  The
length of a leg is summed up in 64 bits, so it is exact if it fits (`wrapInt64_eq_iff`).
-/
def loads (id : String) (base : RootBase) (type : ScalarType) (stops : List Stop) :
    List Variable :=
  let pointers := pointerNames stops
  List.zipWith3 (fun name type source => .scalar ⟨name, type, source⟩)
    (pointers ++ [id])
    (List.replicate pointers.length .voidPointer ++ [type])
    (List.zipWith .memory (base.variableName :: pointers)
      ((legs stops).map fun leg => wrapInt64 (length leg)))

section Moves

variable {setting : Setting} {language : Language} {s t : Scope} {stop : Stop} {base : String}
  {offset : Int} {next : Walk}

def crossing (stop : Stop) (base : String) (offset : Int) : List Variable :=
  if stop.isPointer then
    [.scalar ⟨stop.exit.display, .voidPointer,
      .memory base (wrapInt64 (offset + stop.distance))⟩]
  else []

def exitBase (stop : Stop) (base : String) : String :=
  if stop.isPointer then stop.exit.display else base

def exitOffset (stop : Stop) (offset : Int) : Int :=
  if stop.isPointer then 0 else offset + stop.distance

def walk (stop : Stop) (base : String) (offset : Int) : Walk :=
  ⟨stop.kind, stop.typeName, base, wrapInt64 (offset + stop.distance), stop.path⟩

def walkOn (stop : Stop) (base : String) (offset : Int) : Walk :=
  ⟨stop.kind, stop.typeName, stop.exitBase base, wrapInt64 (stop.exitOffset offset), stop.exit⟩

theorem deref_ok_iff {walk : Walk} :
    (walk.deref language).runFrom s = (.ok next, t) ↔
      next = { walk with
        base := (walk.path.push .deref).display, offset := 0, path := walk.path.push .deref } ∧
      s.Declares t [.scalar ⟨(walk.path.push .deref).display, .voidPointer,
        .memory walk.base walk.offset⟩] := by
  constructor
  · intro h
    obtain ⟨type, _, hquery, h⟩ := Step.runFrom_bind_ok.mp h
    cases hquery
    obtain ⟨_, u, hadd, h⟩ := Step.runFrom_bind_ok.mp h
    cases h
    exact ⟨rfl, Scope.runFrom_addVariable_ok_iff.mp hadd⟩
  · rintro ⟨rfl, hdeclares⟩
    exact Step.runFrom_bind_ok.mpr ⟨.voidPointer, s, rfl,
      Step.runFrom_bind_ok.mpr ⟨(), t, Scope.runFrom_addVariable_ok_iff.mpr hdeclares, rfl⟩⟩

theorem walkOn_of_not_pointer (h : stop.kind ≠ .pointer) :
    stop.walkOn base offset = stop.walk base offset := by
  simp [walk, walkOn, exitBase, exitOffset, exit, isPointer, h]

theorem crossing_of_not_pointer (h : stop.kind ≠ .pointer) :
    stop.crossing base offset = [] := by
  simp [crossing, isPointer, h]

theorem crossPointer_ok_iff :
    ((stop.walk base offset).crossPointer language).runFrom s = (.ok next, t) ↔
      next = stop.walkOn base offset ∧ s.Declares t (stop.crossing base offset) := by
  change ((if stop.kind = .pointer then _ else _ : Step Scope Walk).runFrom s = _) ↔ _
  by_cases hpointer : stop.kind = .pointer
  · rw [if_pos hpointer, deref_ok_iff]
    simp [walk, walkOn, crossing, exitBase, exitOffset, exit, isPointer, hpointer]
  · rw [if_neg hpointer, walkOn_of_not_pointer hpointer, crossing_of_not_pointer hpointer,
      Scope.declares_nil]
    simp [eq_comm]

theorem enterMember_walkOn (field : String) (info : MemberInfo) :
    (stop.walkOn base offset).enterMember field info =
      (stop.enter field info).walk (stop.exitBase base) (stop.exitOffset offset) := by
  simp [Walk.enterMember, walk, walkOn, enter, wrapInt64_add]

theorem enterField_ok_iff {field : String} :
    ((stop.walk base offset).enterField setting field).runFrom s = (.ok next, t) ↔
      ∃ info, setting.facts.member stop.typeName field = .ok info ∧
        next = (stop.enter field info).walk (stop.exitBase base) (stop.exitOffset offset) ∧
        s.Declares t (stop.crossing base offset) := by
  constructor
  · intro h
    obtain ⟨crossed, u, hcross, h⟩ := Step.runFrom_bind_ok.mp h
    obtain ⟨info, u', hquery, h⟩ := Step.runFrom_bind_ok.mp h
    cases h
    obtain ⟨rfl, hdeclares⟩ := crossPointer_ok_iff.mp hcross
    obtain ⟨hmember, rfl⟩ := Prod.mk.inj hquery
    refine ⟨info, ?_, enterMember_walkOn field info, hdeclares⟩
    change (setting.facts.member stop.typeName field).mapError
        LowerError.debugInfo = .ok info at hmember
    cases hfound : setting.facts.member stop.typeName field with
    | error e =>
        rw [hfound] at hmember
        cases hmember
    | ok found =>
        rw [hfound] at hmember
        cases hmember
        rfl
  · rintro ⟨info, hmember, rfl, hdeclares⟩
    refine Step.runFrom_bind_ok.mpr ⟨_, t, crossPointer_ok_iff.mpr ⟨rfl, hdeclares⟩, ?_⟩
    refine Step.runFrom_bind_ok.mpr ⟨info, t, ?_, by rw [← enterMember_walkOn]; rfl⟩
    change ((setting.facts.member stop.typeName field).mapError LowerError.debugInfo, t) = _
    rw [hmember]
    rfl

theorem readThrough_eq (walk : Walk) :
    walk.readThrough language = (do
      let next ← walk.crossPointer language
      pure { next with kind := if walk.kind = .pointer then .base else next.kind }) := by
  unfold Walk.readThrough Walk.crossPointer
  split <;> simp

theorem readThrough_ok_iff :
    ((stop.walk base offset).readThrough language).runFrom s = (.ok next, t) ↔
      next = { stop.walkOn base offset with
        kind := if stop.kind = .pointer then .base else stop.kind } ∧
      s.Declares t (stop.crossing base offset) := by
  rw [readThrough_eq, Step.runFrom_bind_ok]
  constructor
  · rintro ⟨crossed, u, hcross, h⟩
    cases h
    obtain ⟨rfl, hdeclares⟩ := crossPointer_ok_iff.mp hcross
    exact ⟨rfl, hdeclares⟩
  · rintro ⟨rfl, hdeclares⟩
    exact ⟨_, t, crossPointer_ok_iff.mpr ⟨rfl, hdeclares⟩, rfl⟩

def finish (language : Language) (id : String) (walk : Walk) : Step Scope Unit := do
  let walk ← walk.readThrough language
  let type ← .query fun _ => resolveScalarType language walk.kind walk.typeName
  Scope.addScalar id type (.memory walk.base walk.offset)

/-- The loads from a stop on, which is reached from `base + offset`. -/
def loadsAlong (id : String) (type : ScalarType) (base : String) (offset : Int) :
    List Stop → List Variable
  | [] => [.scalar ⟨id, type, .memory base (wrapInt64 offset)⟩]
  | stop :: rest =>
      stop.crossing base offset ++
        loadsAlong id type (stop.exitBase base) (stop.exitOffset offset) rest

theorem finish_ok_iff {id : String} :
    (finish language id (stop.walk base offset)).runFrom s = (.ok (), t) ↔
      ∃ type, stop.targetType language = .ok type ∧
        s.Declares t (loadsAlong id type base offset [stop]) := by
  constructor
  · intro h
    obtain ⟨last, u, hread, h⟩ := Step.runFrom_bind_ok.mp h
    obtain ⟨type, u', hquery, hadd⟩ := Step.runFrom_bind_ok.mp h
    obtain ⟨rfl, hcrossed⟩ := readThrough_ok_iff.mp hread
    obtain ⟨htype, rfl⟩ := Prod.mk.inj hquery
    refine ⟨type, htype, Scope.declares_append.mpr ⟨u, hcrossed, ?_⟩⟩
    exact Scope.runFrom_addVariable_ok_iff.mp hadd
  · rintro ⟨type, htype, hdeclares⟩
    obtain ⟨u, hcrossed, hvalue⟩ := Scope.declares_append.mp hdeclares
    refine Step.runFrom_bind_ok.mpr ⟨_, u, readThrough_ok_iff.mpr ⟨rfl, hcrossed⟩, ?_⟩
    refine Step.runFrom_bind_ok.mpr ⟨type, u, Prod.ext htype rfl, ?_⟩
    exact Scope.runFrom_addVariable_ok_iff.mpr hvalue

theorem enterFields_finish_ok_iff {id : String} {fields : List String} :
    ((stop.walk base offset).enterFields setting fields >>= finish setting.language id).runFrom s
        = (.ok (), t) ↔
      ∃ later type, stop.behind setting.facts fields = .ok later ∧
        (later.getLastD stop).targetType setting.language = .ok type ∧
        s.Declares t (loadsAlong id type base offset (stop :: later)) := by
  induction fields generalizing stop base offset s with
  | nil =>
      rw [Walk.enterFields, pure_bind, finish_ok_iff]
      simp [behind]
  | cons field rest ih =>
      rw [Walk.enterFields, bind_assoc, Step.runFrom_bind_ok]
      constructor
      · rintro ⟨next, u, henter, h⟩
        obtain ⟨info, hmember, rfl, hcrossed⟩ := enterField_ok_iff.mp henter
        obtain ⟨later, type, hbehind, htype, hdeclares⟩ := ih.mp h
        exact ⟨stop.enter field info :: later, type,
          behind_cons_ok.mpr ⟨info, later, hmember, hbehind, rfl⟩,
          by rwa [List.getLastD_cons], Scope.declares_append.mpr ⟨u, hcrossed, hdeclares⟩⟩
      · rintro ⟨later, type, hbehind, htype, hdeclares⟩
        obtain ⟨info, further, hmember, hfurther, rfl⟩ := behind_cons_ok.mp hbehind
        rw [List.getLastD_cons] at htype
        obtain ⟨u, hcrossed, hrest⟩ := Scope.declares_append.mp hdeclares
        exact ⟨_, u, enterField_ok_iff.mpr ⟨info, hmember, rfl, hcrossed⟩,
          ih.mpr ⟨further, type, hfurther, htype, hrest⟩⟩

end Moves

/-! ## The loads as a whole -/

theorem exists_legs (stops : List Stop) : ∃ leg more, legs stops = leg :: more := by
  cases stops with
  | nil => exact ⟨[], [], rfl⟩
  | cons stop rest =>
      rw [legs]
      split
      · exact ⟨_, _, rfl⟩
      · split <;> exact ⟨_, _, rfl⟩

theorem legs_cons (stop : Stop) (rest : List Stop) {leg : List Stop} {more : List (List Stop)}
    (h : legs rest = leg :: more) :
    legs (stop :: rest) =
      if stop.isPointer then [stop] :: leg :: more else (stop :: leg) :: more := by
  rw [legs, h]

theorem pointerNames_cons (stop : Stop) (rest : List Stop) :
    pointerNames (stop :: rest) =
      if stop.isPointer then stop.exit.display :: pointerNames rest else pointerNames rest := by
  simp only [pointerNames, List.filter_cons]
  split <;> rfl

@[simp] theorem length_pointerNames (stops : List Stop) :
    (pointerNames stops).length = stops.countP isPointer := by
  rw [pointerNames, List.length_map, List.countP_eq_length_filter]

theorem loadsAlong_eq (id : String) (type : ScalarType) (base : String) (offset : Int)
    (stops : List Stop) {leg : List Stop} {more : List (List Stop)}
    (h : legs stops = leg :: more) :
    loadsAlong id type base offset stops =
      List.zipWith3 (fun name type source => .scalar ⟨name, type, source⟩)
        (pointerNames stops ++ [id])
        (List.replicate (pointerNames stops).length .voidPointer ++ [type])
        (List.zipWith .memory (base :: pointerNames stops)
          (wrapInt64 (offset + length leg) :: more.map fun leg => wrapInt64 (length leg))) := by
  induction stops generalizing base offset leg more with
  | nil =>
      cases h
      simp [loadsAlong, pointerNames, length, List.zipWith3]
  | cons stop rest ih =>
      obtain ⟨leg', more', hlegs⟩ := exists_legs rest
      rw [loadsAlong, ih _ _ hlegs]
      rw [legs_cons stop rest hlegs] at h
      by_cases hpointer : stop.isPointer
      · rw [if_pos hpointer] at h
        cases h
        simp [crossing, exitBase, exitOffset, pointerNames, hpointer, length,
          List.replicate_succ, List.zipWith3]
      · rw [if_neg hpointer] at h
        cases h
        simp [crossing, exitBase, exitOffset, pointerNames, hpointer, length, Int.add_assoc]

theorem loads_eq (id : String) (base : RootBase) (type : ScalarType) (stops : List Stop) :
    loads id base type stops = loadsAlong id type base.variableName 0 stops := by
  obtain ⟨leg, more, hlegs⟩ := exists_legs stops
  rw [loadsAlong_eq id type base.variableName 0 stops hlegs, loads, hlegs]
  simp

theorem length_loads (id : String) (base : RootBase) (type : ScalarType)
    (stops : List Stop) :
    (loads id base type stops).length = stops.countP isPointer + 1 := by
  rw [loads_eq]
  generalize base.variableName = start, (0 : Int) = offset
  induction stops generalizing start offset with
  | nil => rfl
  | cons stop rest ih =>
      rw [loadsAlong, List.length_append, ih, List.countP_cons, crossing]
      split <;> simp_all
      omega

theorem names_loads (id : String) (base : RootBase) (type : ScalarType)
    (stops : List Stop) :
    (loads id base type stops).map Variable.name = pointerNames stops ++ [id] := by
  rw [loads_eq]
  generalize base.variableName = start, (0 : Int) = offset
  induction stops generalizing start offset with
  | nil => rfl
  | cons stop rest ih =>
      rw [loadsAlong, List.map_append, ih, crossing, pointerNames_cons]
      split <;> simp [Variable.name]

end Stop

def ExtendsName (name longer : String) : Prop :=
  ∃ suffix, suffix ≠ "" ∧ longer = name ++ suffix

namespace ExtendsName

variable {first second third : String}

theorem trans (h : ExtendsName first second) (h' : ExtendsName second third) :
    ExtendsName first third := by
  obtain ⟨suffix, hsuffix, rfl⟩ := h
  obtain ⟨suffix', -, rfl⟩ := h'
  exact ⟨suffix ++ suffix', by simp [hsuffix], by rw [String.append_assoc]⟩

theorem ne (h : ExtendsName first second) : first ≠ second := by
  obtain ⟨suffix, hsuffix, rfl⟩ := h
  intro heq
  have hchars := congrArg String.toList heq
  rw [String.toList_append, List.self_eq_append_right, String.toList_eq_nil_iff] at hchars
  exact hsuffix hchars

end ExtendsName

theorem AccessPath.extendsName_push (path : AccessPath) (step : PathStep) :
    ExtendsName path.display (path.push step).display := by
  refine ⟨step.display, ?_, ?_⟩
  · cases step <;> simp [PathStep.display]
  · simp [display, push, String.join_append, String.append_assoc]

namespace Stop

variable {facts : Facts} {stop : Stop} {fields : List String} {later : List Stop}

theorem extendsName_exit (h : stop.isPointer) :
    ExtendsName stop.path.display stop.exit.display := by
  rw [exit, if_pos h]
  exact AccessPath.extendsName_push _ _

theorem extendsName_of_exit {name : String} (h : ExtendsName stop.exit.display name) :
    ExtendsName stop.path.display name := by
  by_cases hpointer : stop.isPointer
  · exact (extendsName_exit hpointer).trans h
  · rwa [exit, if_neg hpointer] at h

theorem extendsName_enter (stop : Stop) (field : String) (info : MemberInfo) :
    ExtendsName stop.exit.display (stop.enter field info).exit.display := by
  have hfield : ExtendsName stop.exit.display (stop.enter field info).path.display :=
    stop.exit.extendsName_push (.field field)
  by_cases hpointer : (stop.enter field info).isPointer
  · exact hfield.trans (extendsName_exit hpointer)
  · rwa [exit.eq_1 (stop.enter field info), if_neg hpointer]

/-- Behind a stop the names of the paths on which the way goes on only get longer. -/
theorem pairwise_exits (h : stop.behind facts fields = .ok later) :
    ((stop :: later).map (·.exit.display)).Pairwise ExtendsName := by
  induction fields generalizing stop later with
  | nil =>
      cases h
      simp
  | cons field rest ih =>
      obtain ⟨info, further, -, hfurther, rfl⟩ := behind_cons_ok.mp h
      have hrest := ih hfurther
      rw [List.map_cons, List.pairwise_cons]
      refine ⟨?_, hrest⟩
      have hnext := stop.extendsName_enter field info
      rw [List.map_cons, List.pairwise_cons] at hrest
      intro name hname
      rw [List.map_cons, List.mem_cons] at hname
      rcases hname with rfl | hname
      · exact hnext
      · exact hnext.trans (hrest.1 name hname)

theorem pairwise_pointerNames {id : String} {root : ExprRoot}
    (h : (ofRoot id root).behind facts fields = .ok later) :
    (id :: pointerNames (ofRoot id root :: later)).Pairwise ExtendsName := by
  have hexits := pairwise_exits h
  have hnames : (pointerNames (ofRoot id root :: later)).Sublist
      ((ofRoot id root :: later).map (·.exit.display)) :=
    List.filter_sublist.map _
  have hlater : pointerNames later ⊆ later.map (·.exit.display) :=
    (List.filter_sublist.map _).subset
  rw [List.pairwise_cons]
  refine ⟨fun name hname => ?_, hexits.sublist hnames⟩
  have hid : (ofRoot id root).path.display = id := by
    simp [ofRoot, AccessPath.display]
  rw [List.map_cons, List.pairwise_cons] at hexits
  rw [pointerNames_cons] at hname
  rw [← hid]
  split at hname
  next hpointer =>
    rcases List.mem_cons.mp hname with rfl | hname
    · exact extendsName_exit hpointer
    · exact extendsName_of_exit (hexits.1 name (hlater hname))
  next => exact extendsName_of_exit (hexits.1 name (hlater hname))

end Stop

/-! ## Access chains -/

section AccessChains

variable {setting : Setting} {id : String} {root : ExprRoot} {fields : List String}
  {s t : Scope}

theorem lowerAccessChain_ok_iff :
    (lowerAccessChain setting id root fields).runFrom s = (.ok (), t) ↔
      ∃ later type, (Stop.ofRoot id root).behind setting.facts fields = .ok later ∧
        (later.getLastD (.ofRoot id root)).targetType setting.language = .ok type ∧
        s.Declares t (Stop.loads id root.base type (.ofRoot id root :: later)) := by
  have hstart : Walk.start id root = (Stop.ofRoot id root).walk root.base.variableName 0 := by
    simp [Walk.start, Stop.walk, Stop.ofRoot]
  simp only [Stop.loads_eq]
  rw [← Stop.enterFields_finish_ok_iff, ← hstart]
  rfl

theorem nodup_names_loads {later : List Stop} {type : ScalarType}
    (h : (Stop.ofRoot id root).behind setting.facts fields = .ok later) :
    ((Stop.loads id root.base type (.ofRoot id root :: later)).map Variable.name).Nodup := by
  have hnodup : (id :: Stop.pointerNames (.ofRoot id root :: later)).Nodup :=
    (Stop.pairwise_pointerNames h).imp ExtendsName.ne
  rw [Stop.names_loads]
  exact (List.perm_append_singleton id _).nodup_iff.mpr hnodup

theorem exists_declares_loads_iff {later : List Stop} {type : ScalarType}
    (h : (Stop.ofRoot id root).behind setting.facts fields = .ok later) :
    (∃ t, s.Declares t (Stop.loads id root.base type (.ofRoot id root :: later))) ↔
      ∀ name ∈ Stop.pointerNames (.ofRoot id root :: later) ++ [id],
        s.symbols.contains name = false := by
  rw [Scope.exists_declares_iff, and_iff_left (nodup_names_loads h), ← Stop.names_loads,
    List.forall_mem_map]

/--
Where an access chain starts from the register of `root` it succeeds exactly if every
field is a member of the type before it, the value at the end has a scalar type and no name
of its loads is taken.  What it declares are these loads and nothing else: one for each
pointer on the way, called after the path behind it, and then `id`.  Each of them loads
from the one before, the first from the register, at the sum of the distances that lie
between, in words of 64 bits.  The names differ, since the path of each pointer goes on from
the one before.
-/
theorem accessChain_shape (setting : Setting) (id : String) (root : ExprRoot)
    (fields : List String) (s : Scope) :
    ((∃ t, (lowerAccessChain setting id root fields).runFrom s = (.ok (), t)) ↔
      ∃ later type, (Stop.ofRoot id root).behind setting.facts fields = .ok later ∧
        (later.getLastD (.ofRoot id root)).targetType setting.language = .ok type ∧
        ∀ name ∈ Stop.pointerNames (.ofRoot id root :: later) ++ [id],
          s.symbols.contains name = false) ∧
    ∀ t, (lowerAccessChain setting id root fields).runFrom s = (.ok (), t) →
      ∃ later type, (Stop.ofRoot id root).behind setting.facts fields = .ok later ∧
        (later.getLastD (.ofRoot id root)).targetType setting.language = .ok type ∧
        let stops := Stop.ofRoot id root :: later
        let loads := Stop.loads id root.base type stops
        s.Declares t loads ∧
        loads.length = stops.countP Stop.isPointer + 1 ∧
        loads.map Variable.name = Stop.pointerNames stops ++ [id] ∧
        (id :: Stop.pointerNames stops).Pairwise ExtendsName ∧
        (loads.map Variable.name).Nodup := by
  constructor
  · simp only [lowerAccessChain_ok_iff]
    constructor
    · rintro ⟨t, later, type, hlater, htype, hdeclares⟩
      exact ⟨later, type, hlater, htype, (exists_declares_loads_iff hlater).mp ⟨t, hdeclares⟩⟩
    · rintro ⟨later, type, hlater, htype, hfree⟩
      obtain ⟨t, hdeclares⟩ := (exists_declares_loads_iff hlater).mpr hfree
      exact ⟨t, later, type, hlater, htype, hdeclares⟩
  · intro t hrun
    obtain ⟨later, type, hlater, htype, hdeclares⟩ := lowerAccessChain_ok_iff.mp hrun
    exact ⟨later, type, hlater, htype, hdeclares, Stop.length_loads _ _ _ _,
      Stop.names_loads _ _ _ _, Stop.pairwise_pointerNames hlater, nodup_names_loads hlater⟩

def nodeSetting : Setting where
  facts := (((({} : Snapshot).withArg "walk" "p" ⟨24, .pointer, "node"⟩).withMember
    "node" "next" ⟨16, .pointer, "node"⟩).withMember "node" "b" ⟨4, .base, "int"⟩).facts
  language := .c
  args := NameMap.ofList [("p", ⟨24, .pointer, "node"⟩)]
  retval := {}

theorem accessChain_shape_nodeSetting :
    ∃ t, (lowerAccessChain nodeSetting "a0" (.stack ⟨24, .pointer, "node"⟩)
        ["next", "b"]).runFrom (.start "walk" ⟨"walk", .entry⟩) = (.ok (), t) ∧
      t.probe.vars =
        [.scalar ⟨"a0_X_", .voidPointer, .memory "sp_" 32⟩,
          .scalar ⟨"a0_X__D_next_X_", .voidPointer, .memory "a0_X_" 16⟩,
          .scalar ⟨"a0", .int, .memory "a0_X__D_next_X_" 4⟩] := by
  have hshape := accessChain_shape nodeSetting "a0" (.stack ⟨24, .pointer, "node"⟩)
    ["next", "b"] (.start "walk" ⟨"walk", .entry⟩)
  have hfree : ∀ name ∈ ["a0_X_", "a0_X__D_next_X_"] ++ ["a0"],
      (Scope.start "walk" ⟨"walk", .entry⟩).symbols.contains name = false := by
    decide
  obtain ⟨t, hrun⟩ := hshape.1.mpr ⟨_, _, rfl, rfl, hfree⟩
  obtain ⟨later, type, hlater, htype, hdeclares, -⟩ := hshape.2 t hrun
  cases hlater
  cases htype
  refine ⟨t, hrun, ?_⟩
  rw [hdeclares.probe]
  rfl

end AccessChains

end ProbeLowering
