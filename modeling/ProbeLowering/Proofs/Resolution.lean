import ProbeLowering.Proofs.Parts

/-!
# Resolved references

Variables and actions of a probe refer to variables, maps, outputs and records by
name.  A probe is `Resolved` in a program if each of these names stands for something
of the right kind, and a variable refers only to variables before it.  Constants,
arguments and results only declare scalars, and what they load from is declared before
(`ensures_declareParts`): a walk stands on a variable of the scope all the time.
-/

namespace ProbeLowering

open DebugInfo
open Physical (Variable ScalarSource)

namespace Physical

/-- What the variable refers to is among the variables `before` it and in the program. -/
def Variable.Resolved (program : Program) (before : List Variable) : Variable → Prop
  | .scalar v => ∀ base offset, v.source = .memory base offset →
      ∃ x, .scalar x ∈ before ∧ x.name = base
  | .map v => v.keyVariable ∈ before.map Variable.name ∧
      v.mapName ∈ program.maps.map MapDecl.name ∧
      v.structType ∈ program.structs.map Struct.name
  | .member v => ∃ x, .map x ∈ before ∧ x.name = v.structBase
  | .struct v =>
      (∀ assignment ∈ v.assignments, ∃ x ∈ before, x.name = assignment.variableName ∧
        ((∃ y, x = .scalar y) ∨ ∃ y, x = .member y)) ∧
      v.structType ∈ program.structs.map Struct.name

structure Probe.Resolved (program : Program) (probe : Probe) : Prop where
  vars : ∀ before v after, probe.vars = before ++ v :: after →
    v.Resolved program before
  stashes : ∀ action ∈ probe.stashes,
    action.keyVariable ∈ probe.vars.map Variable.name ∧
      (∃ x, .struct x ∈ probe.vars ∧ x.name = action.valueVariable) ∧
      action.mapName ∈ program.maps.map MapDecl.name
  deletes : ∀ action ∈ probe.deletes,
    action.keyVariable ∈ probe.vars.map Variable.name ∧
      action.mapName ∈ program.maps.map MapDecl.name
  outputs : ∀ action ∈ probe.outputs,
    (∃ x, .struct x ∈ probe.vars ∧ x.name = action.variableName) ∧
      action.bufferName ∈ program.outputs.map PerfBuffer.name

namespace Probe.Resolved

variable {program later : Program} {probe : Probe} (h : probe.Resolved program)

include h

theorem append {added : List Variable}
    (hadded : ∀ before v after, added = before ++ v :: after →
      v.Resolved program (probe.vars ++ before)) :
    Probe.Resolved program { probe with vars := probe.vars ++ added } where
  vars before v after hsplit := by
    rcases List.append_eq_append_iff.mp hsplit with
      ⟨between, rfl, hnew⟩ | ⟨rest, hold, hrest⟩
    · exact hadded between v after hnew
    · cases rest with
      | nil =>
          have hnew := hadded [] v after hrest.symm
          simpa [hold] using hnew
      | cons first rest =>
          obtain ⟨rfl, -⟩ := List.cons.inj hrest
          exact h.vars before v rest hold
  stashes action haction := by
    obtain ⟨hkey, ⟨x, hx, hname⟩, hmap⟩ := h.stashes action haction
    exact ⟨by simpa using .inl (by simpa using hkey), ⟨x, by simp [hx], hname⟩, hmap⟩
  deletes action haction := by
    obtain ⟨hkey, hmap⟩ := h.deletes action haction
    exact ⟨by simpa using .inl (by simpa using hkey), hmap⟩
  outputs action haction := by
    obtain ⟨⟨x, hx, hname⟩, hbuffer⟩ := h.outputs action haction
    exact ⟨⟨x, by simp [hx], hname⟩, hbuffer⟩

theorem concat {v : Variable} (hv : v.Resolved program probe.vars) :
    Probe.Resolved program { probe with vars := probe.vars ++ [v] } := by
  refine h.append fun before next after hsplit => ?_
  cases before with
  | nil =>
      obtain ⟨rfl, -⟩ := List.cons.inj hsplit
      simpa using hv
  | cons first rest => simp at hsplit

theorem addStash {action : StashAction}
    (hkey : action.keyVariable ∈ probe.vars.map Variable.name)
    (hvalue : ∃ x, .struct x ∈ probe.vars ∧ x.name = action.valueVariable)
    (hmap : action.mapName ∈ program.maps.map MapDecl.name) :
    Probe.Resolved program { probe with stashes := probe.stashes ++ [action] } where
  vars := h.vars
  stashes other hother := by
    rcases List.mem_append.mp hother with hother | hother
    · exact h.stashes other hother
    · obtain rfl := List.mem_singleton.mp hother
      exact ⟨hkey, hvalue, hmap⟩
  deletes := h.deletes
  outputs := h.outputs

theorem addDelete {action : DeleteAction}
    (hkey : action.keyVariable ∈ probe.vars.map Variable.name)
    (hmap : action.mapName ∈ program.maps.map MapDecl.name) :
    Probe.Resolved program { probe with deletes := probe.deletes ++ [action] } where
  vars := h.vars
  stashes := h.stashes
  deletes other hother := by
    rcases List.mem_append.mp hother with hother | hother
    · exact h.deletes other hother
    · obtain rfl := List.mem_singleton.mp hother
      exact ⟨hkey, hmap⟩
  outputs := h.outputs

theorem addOutput {action : OutputAction}
    (hvalue : ∃ x, .struct x ∈ probe.vars ∧ x.name = action.variableName)
    (hbuffer : action.bufferName ∈ program.outputs.map PerfBuffer.name) :
    Probe.Resolved program { probe with outputs := probe.outputs ++ [action] } where
  vars := h.vars
  stashes := h.stashes
  deletes := h.deletes
  outputs other hother := by
    rcases List.mem_append.mp hother with hother | hother
    · exact h.outputs other hother
    · obtain rfl := List.mem_singleton.mp hother
      exact ⟨hvalue, hbuffer⟩

end Probe.Resolved

end Physical

/-! ## Grounded scopes -/

/-- While only values are declared: scalars that load from scalars before them. -/
structure Scope.Grounded (program : Physical.Program) (scope : Scope) : Prop where
  consistent : scope.Consistent
  scalars : ∀ v ∈ scope.probe.vars, ∃ x, v = .scalar x
  stackPointer : stackPointerVariable ∈ scope.probe.vars.map Variable.name
  resolved : scope.probe.Resolved program

variable {program : Physical.Program}

namespace Scope

theorem Grounded.exists_scalar {scope : Scope} (h : scope.Grounded program) {name : String}
    (hname : name ∈ scope.probe.vars.map Variable.name) :
    ∃ x, .scalar x ∈ scope.probe.vars ∧ x.name = name := by
  obtain ⟨v, hv, rfl⟩ := List.mem_map.mp hname
  obtain ⟨x, rfl⟩ := h.scalars v hv
  exact ⟨x, hv, rfl⟩

theorem ensures_addScalar (name : String) (type : ScalarType) (source : ScalarSource) :
    Step.Ensures
      (fun s => s.Grounded program ∧ ∀ base offset, source = .memory base offset →
        base ∈ s.probe.vars.map Variable.name)
      (addScalar name type source)
      (fun _ t => t.Grounded program ∧ name ∈ t.probe.vars.map Variable.name) := by
  rintro s _ t ⟨hs, hsource⟩ h
  have hextends := (keeps_addScalar (P := fun _ => True) (fun _ => trivial) name type
    source).of_run h
  have hprobe := probe_of_addVariable h
  have hv : (Variable.scalar ⟨name, type, source⟩).Resolved program s.probe.vars :=
    fun base offset heq => hs.exists_scalar (hsource base offset heq)
  refine ⟨⟨hextends.consistent hs.consistent, ?_, ?_, ?_⟩, ?_⟩
  · intro v hv
    rw [hprobe, List.mem_append, List.mem_singleton] at hv
    rcases hv with hv | rfl
    · exact hs.scalars v hv
    · exact ⟨_, rfl⟩
  · have hsp := hs.stackPointer
    simp only [hprobe, List.map_append, List.mem_append]
    exact .inl hsp
  · rw [hprobe]
    exact hs.resolved.concat hv
  · simp [hprobe, Variable.name]

theorem ensures_addValue {name : String} {type : ScalarType} {source : ScalarSource}
    (hsource : ∀ base offset, source ≠ .memory base offset) :
    Step.Ensures (Grounded program) (addScalar name type source)
      fun _ => Grounded program :=
  fun s a t hs h => (ensures_addScalar name type source s a t
    ⟨hs, fun base offset heq => absurd heq (hsource base offset)⟩ h).1

theorem ensures_addSpecialVariables (language : Language) :
    Step.Ensures
      (fun s => s.probe.vars = [] ∧ s.Consistent ∧ s.probe.Resolved program)
      (addSpecialVariables language) (fun _ => Grounded program) := by
  rintro s _ t ⟨hvars, hs, hresolved⟩ h
  have hextends := (keeps_addSpecialVariables (P := fun _ => True) (fun _ => trivial)
    language).of_run h
  have hprobe := probe_of_addSpecialVariables h
  have hspecial : ∀ v ∈ specialVariables language s.probe.tracepoint,
      ∃ x, v = .scalar x ∧ ∀ base offset, x.source ≠ .memory base offset := by
    intro v hv
    simp only [specialVariables, List.mem_append, List.mem_ite_nil_right, List.mem_cons,
      List.not_mem_nil, or_false] at hv
    rcases hv with ((rfl | rfl | rfl | rfl | rfl) | ⟨-, rfl⟩) | ⟨-, rfl⟩
    all_goals exact ⟨_, rfl, by simp⟩
  refine ⟨hextends.consistent hs, ?_, ?_, ?_⟩
  · intro v hv
    rw [hprobe, hvars, List.nil_append] at hv
    obtain ⟨x, rfl, -⟩ := hspecial v hv
    exact ⟨x, rfl⟩
  · simp [hprobe, specialVariables, Variable.name]
  · rw [hprobe]
    refine hresolved.append fun before v after hsplit => ?_
    obtain ⟨x, rfl, hsource⟩ := hspecial v (by simp [hsplit])
    exact fun base offset heq => absurd heq (hsource base offset)

end Scope

namespace Walk

def Within (program : Physical.Program) (walk : Walk) (scope : Scope) : Prop :=
  scope.Grounded program ∧ walk.base ∈ scope.probe.vars.map Variable.name

theorem ensures_load (walk : Walk) (name : String) (type : ScalarType) :
    Step.Ensures (walk.Within program)
      (Scope.addScalar name type (.memory walk.base walk.offset))
      (fun _ t => t.Grounded program ∧ name ∈ t.probe.vars.map Variable.name) := by
  refine (Scope.ensures_addScalar name type _).of_imp ?_
  rintro s ⟨hs, hbase⟩
  refine ⟨hs, ?_⟩
  rintro base offset ⟨⟩
  exact hbase

theorem ensures_deref (language : Language) (walk : Walk) :
    Step.Ensures (walk.Within program) (walk.deref language)
      (fun next => next.Within program) :=
  (Step.Ensures.query _).bind fun _ =>
    (walk.ensures_load _ _).bind fun _ => .pure fun _ ht => ht

theorem ensures_crossPointer (language : Language) (walk : Walk) :
    Step.Ensures (walk.Within program) (walk.crossPointer language)
      (fun next => next.Within program) :=
  .ite (fun _ => walk.ensures_deref language) fun _ => .pure fun _ hs => hs

theorem ensures_enterField (setting : Setting) (walk : Walk) (field : String) :
    Step.Ensures (walk.Within program) (walk.enterField setting field)
      (fun next => next.Within program) :=
  (walk.ensures_crossPointer setting.language).bind fun _ =>
    (Step.Ensures.query _).bind fun _ => .pure fun _ hs => hs

theorem ensures_enterFields (setting : Setting) (walk : Walk) (fields : List String) :
    Step.Ensures (walk.Within program) (walk.enterFields setting fields)
      (fun next => next.Within program) := by
  induction fields generalizing walk with
  | nil => exact .pure fun _ hs => hs
  | cons field rest ih =>
      exact (walk.ensures_enterField setting field).bind fun next => ih next

theorem ensures_readThrough (language : Language) (walk : Walk) :
    Step.Ensures (walk.Within program) (walk.readThrough language)
      (fun next => next.Within program) :=
  .ite (fun _ => (walk.ensures_deref language).bind fun _ => .pure fun _ hs => hs)
    fun _ => .pure fun _ hs => hs

end Walk

theorem ensures_lowerAccessChain (setting : Setting) (id : String) (root : ExprRoot)
    (fields : List String) :
    Step.Ensures ((Walk.start id root).Within program)
      (lowerAccessChain setting id root fields) (fun _ => Scope.Grounded program) := by
  refine ((Walk.start id root).ensures_enterFields setting fields).bind fun entered => ?_
  refine (entered.ensures_readThrough _).bind fun last => ?_
  refine (Step.Ensures.query _).bind fun type => ?_
  exact fun s a t hs h => (last.ensures_load id type s a t hs h).1

theorem ensures_lowerArgument (setting : Setting) (arg : Logical.Argument) :
    Step.Ensures (Scope.Grounded program) (lowerArgument setting arg)
      fun _ => Scope.Grounded program := by
  unfold lowerArgument
  split
  · exact .throw _
  · exact (Step.Ensures.query _).bind fun info =>
      (ensures_lowerAccessChain _ _ _ _).of_imp fun _ hs => ⟨hs, hs.stackPointer⟩

theorem ensures_lowerRegisterReturn (setting : Setting) (id : String)
    (fields : List String) :
    Step.Ensures (Scope.Grounded program) (lowerRegisterReturn setting id fields)
      fun _ => Scope.Grounded program := by
  unfold lowerRegisterReturn
  dsimp only
  split
  · exact (Step.Ensures.query _).bind fun _ => Scope.ensures_addValue (by simp)
  · refine Step.Ensures.get_bind fun s hs => .ite (fun hcontains => ?_) fun _ => .throw _
    refine (ensures_lowerAccessChain _ _ _ _).of_imp ?_
    rintro _ rfl
    exact ⟨hs, hs.consistent.contains_iff.mp hcontains⟩
  · exact .get_bind fun _ _ => .throw _
  · exact .throw _

theorem ensures_lowerReturnValue (setting : Setting) (value : Logical.ReturnValue) :
    Step.Ensures (Scope.Grounded program) (lowerReturnValue setting value)
      fun _ => Scope.Grounded program := by
  unfold lowerReturnValue
  split
  · exact .throw _
  split
  · exact .throw _
  split
  · exact (Step.Ensures.query _).bind fun info =>
      (ensures_lowerAccessChain _ _ _ _).of_imp fun _ hs => ⟨hs, hs.stackPointer⟩
  · exact .ite (fun _ => ensures_lowerRegisterReturn _ _ _) fun _ => .throw _
  · exact .ite (fun _ => ensures_lowerRegisterReturn _ _ _) fun _ => .throw _
  · exact .throw _

namespace Build

theorem ensures_onScope {α : Type} {step : Step Scope α} {P : Scope → Prop}
    {Q : α → Scope → Prop} (h : Step.Ensures P step Q) (w : Workspace) :
    Step.Ensures (fun b => P b.scope ∧ b.workspace = w) (onScope step)
      (fun a b => Q a b.scope ∧ b.workspace = w) := by
  rintro b a c ⟨hb, rfl⟩ hrun
  obtain ⟨hstep, hworkspace⟩ := runFrom_onScope_ok.mp hrun
  exact ⟨h _ _ _ hb hstep, hworkspace⟩

theorem ensures_declareParts (setting : Setting) (input : Logical.Probe) (w : Workspace) :
    Step.Ensures
      (fun b => (b.scope.probe.vars = [] ∧ b.scope.Consistent ∧
        b.scope.probe.Resolved program) ∧ b.workspace = w)
      (Step.sequence (declareParts setting input))
      (fun _ b => b.scope.Grounded program ∧ b.workspace = w) := by
  refine (ensures_onScope (Scope.ensures_addSpecialVariables _) w).bind fun _ => ?_
  refine Step.Ensures.sequence fun part hpart => ?_
  simp only [valueParts, List.mem_append, List.mem_map, Function.comp_apply] at hpart
  rcases hpart with (⟨constant, -, rfl⟩ | ⟨arg, -, rfl⟩) | ⟨value, -, rfl⟩
  · exact ensures_onScope (Scope.ensures_addValue (by simp)) w
  · exact ensures_onScope (ensures_lowerArgument setting arg) w
  · exact ensures_onScope (ensures_lowerReturnValue setting value) w

end Build

end ProbeLowering
