import Mathlib.Data.List.Forall2
import ProbeLowering.Proofs.Scope

/-!
# Chains of loads

An expression declares one variable for each pointer that it crosses and then the one
it is about.  Each of them loads from the one before, the first from the register that
the expression starts at (`Chain`).  A run over several expressions declares their
blocks of variables one after the other (`Scope.exists_blocks_of_run`).
-/

namespace ProbeLowering

open DebugInfo
open Physical (Variable)

namespace Scope

/-- From `s` to `t` these variables are declared and nothing else changes in the probe. -/
def Adds (s t : Scope) (block : List Variable) : Prop :=
  t.probe = { s.probe with vars := s.probe.vars ++ block }

variable {s t u : Scope} {block later : List Variable}

theorem adds_nil (s : Scope) : s.Adds s [] := by
  simp [Adds]

theorem Adds.trans (h : s.Adds t block) (h' : t.Adds u later) :
    s.Adds u (block ++ later) := by
  unfold Adds at *
  simp [h', h]

theorem adds_of_addVariable {v : Variable}
    (h : (addVariable v).runFrom s = (.ok (), t)) : s.Adds t [v] :=
  probe_of_addVariable h

theorem Adds.subset (h : s.Adds t block) : block ⊆ t.probe.vars := by
  rw [show t.probe = _ from h]
  exact List.subset_append_right _ _

theorem exists_blocks_of_run {σ α : Type} (scopeOf : σ → Scope) {f : α → Step σ Unit}
    {Block : α → List Variable → Prop}
    (hf : ∀ x b c, (f x).runFrom b = (.ok (), c) →
      ∃ block, Block x block ∧ (scopeOf b).Adds (scopeOf c) block)
    {xs : List α} {b c : σ} (h : (Step.sequence (xs.map f)).runFrom b = (.ok (), c)) :
    ∃ blocks, List.Forall₂ Block xs blocks ∧ (scopeOf b).Adds (scopeOf c) blocks.flatten := by
  induction xs generalizing b with
  | nil =>
      cases h
      exact ⟨[], .nil, adds_nil (scopeOf c)⟩
  | cons x xs ih =>
      obtain ⟨d, hx, hrest⟩ := Step.runFrom_sequence_cons_ok.mp h
      obtain ⟨block, hblock, hadds⟩ := hf x b d hx
      obtain ⟨blocks, hblocks, hlater⟩ := ih hrest
      exact ⟨block :: blocks, .cons hblock hblocks, hadds.trans hlater⟩

end Scope

def pointerName (id : String) (steps : List PathStep) : String :=
  AccessPath.display ⟨id, steps ++ [.deref]⟩

/-- Loads that start at the variable `base`; the last of them is called `id`. -/
inductive Chain (id : String) : String → List Variable → Prop where
  | value (base : String) (type : ScalarType) (offset : Int) :
      Chain id base [.scalar ⟨id, type, .memory base offset⟩]
  | cross (base : String) (steps : List PathStep) (offset : Int) {rest : List Variable}
      (next : Chain id (pointerName id steps) rest) :
      Chain id base
        (.scalar ⟨pointerName id steps, .voidPointer, .memory base offset⟩ :: rest)

namespace Walk

variable {id : String} {setting : Setting} {walk next last : Walk} {s t u : Scope}

/--
Between the walk in `s` and the next one in `t` only loads are declared that a chain
from the next one continues.
-/
structure LeadsTo (id : String) (s : Scope) (walk : Walk) (t : Scope) (next : Walk) :
    Prop where
  root : next.path.root = id
  chain : ∀ {u rest}, Chain id next.base rest → t.Adds u rest →
    ∃ block, Chain id walk.base block ∧ s.Adds u block

theorem leadsTo_self (h : walk.path.root = id) : walk.LeadsTo id s s walk :=
  ⟨h, fun hrest hadds => ⟨_, hrest, hadds⟩⟩

theorem LeadsTo.trans (h : walk.LeadsTo id s t next) (h' : next.LeadsTo id t u last) :
    walk.LeadsTo id s u last := by
  refine ⟨h'.root, fun hrest hadds => ?_⟩
  obtain ⟨later, hlater, hadds⟩ := h'.chain hrest hadds
  exact h.chain hlater hadds

theorem leadsTo_of_deref {language : Language} (hroot : walk.path.root = id)
    (h : (walk.deref language).runFrom s = (.ok next, t)) :
    walk.LeadsTo id s t next := by
  subst hroot
  obtain ⟨type, _, hquery, h⟩ := Step.runFrom_bind_ok.mp h
  cases hquery
  obtain ⟨_, u, hadd, h⟩ := Step.runFrom_bind_ok.mp h
  cases h
  refine ⟨rfl, fun hrest hadds => ?_⟩
  exact ⟨_, .cross walk.base walk.path.steps walk.offset hrest,
    (Scope.adds_of_addVariable hadd).trans hadds⟩

theorem leadsTo_of_crossPointer {language : Language} (hroot : walk.path.root = id)
    (h : (walk.crossPointer language).runFrom s = (.ok next, t)) :
    walk.LeadsTo id s t next := by
  unfold crossPointer at h
  split at h
  next => exact leadsTo_of_deref hroot h
  next =>
    cases h
    exact leadsTo_self hroot

theorem leadsTo_of_enterField {field : String} (hroot : walk.path.root = id)
    (h : (walk.enterField setting field).runFrom s = (.ok next, t)) :
    walk.LeadsTo id s t next := by
  obtain ⟨crossed, u, hcross, h⟩ := Step.runFrom_bind_ok.mp h
  obtain ⟨info, _, hquery, h⟩ := Step.runFrom_bind_ok.mp h
  cases h
  obtain ⟨-, rfl⟩ := Prod.mk.inj hquery
  have hcrossed := leadsTo_of_crossPointer hroot hcross
  exact ⟨hcrossed.root, hcrossed.chain⟩

theorem leadsTo_of_enterFields {fields : List String} (hroot : walk.path.root = id)
    (h : (walk.enterFields setting fields).runFrom s = (.ok next, t)) :
    walk.LeadsTo id s t next := by
  induction fields generalizing walk s with
  | nil =>
      cases h
      exact leadsTo_self hroot
  | cons field rest ih =>
      obtain ⟨entered, u, hfield, hrest⟩ := Step.runFrom_bind_ok.mp h
      have hentered := leadsTo_of_enterField hroot hfield
      exact hentered.trans (ih hentered.root hrest)

theorem leadsTo_of_readThrough {language : Language} (hroot : walk.path.root = id)
    (h : (walk.readThrough language).runFrom s = (.ok next, t)) :
    walk.LeadsTo id s t next := by
  unfold readThrough at h
  split at h
  next =>
    obtain ⟨loaded, u, hderef, h⟩ := Step.runFrom_bind_ok.mp h
    cases h
    have hloaded := leadsTo_of_deref hroot hderef
    exact ⟨hloaded.root, hloaded.chain⟩
  next =>
    cases h
    exact leadsTo_self hroot

end Walk

section Expressions

variable {setting : Setting} {s t : Scope}

theorem chain_of_lowerAccessChain {id : String} {root : ExprRoot} {fields : List String}
    (h : (lowerAccessChain setting id root fields).runFrom s = (.ok (), t)) :
    ∃ block, Chain id root.base.variableName block ∧ s.Adds t block := by
  obtain ⟨entered, u, hfields, h⟩ := Step.runFrom_bind_ok.mp h
  obtain ⟨last, u', hthrough, h⟩ := Step.runFrom_bind_ok.mp h
  obtain ⟨type, _, hquery, hadd⟩ := Step.runFrom_bind_ok.mp h
  obtain ⟨-, rfl⟩ := Prod.mk.inj hquery
  have hentered : (Walk.start id root).LeadsTo id s u entered :=
    Walk.leadsTo_of_enterFields rfl hfields
  have hlast := hentered.trans (Walk.leadsTo_of_readThrough hentered.root hthrough)
  exact hlast.chain (.value last.base type last.offset) (Scope.adds_of_addVariable hadd)

theorem chain_of_lowerArgument {arg : Logical.Argument}
    (h : (lowerArgument setting arg).runFrom s = (.ok (), t)) :
    ∃ block, Chain arg.id stackPointerVariable block ∧ s.Adds t block := by
  unfold lowerArgument at h
  split at h
  next => cases h
  next expr _ =>
    obtain ⟨info, _, hquery, hchain⟩ := Step.runFrom_bind_ok.mp h
    obtain ⟨-, rfl⟩ := Prod.mk.inj hquery
    exact chain_of_lowerAccessChain hchain

inductive ResultBlock (id : String) : Language → List Variable → Prop where
  | onStack {block : List Variable} (chain : Chain id stackPointerVariable block) :
      ResultBlock id .go block
  | register {language : Language} (h : language.returnsInRegister) (type : ScalarType) :
      ResultBlock id language [.scalar ⟨id, type, .register .rc⟩]
  | fromRegister {language : Language} (h : language.returnsInRegister)
      {block : List Variable} (chain : Chain id returnRegisterVariable block) :
      ResultBlock id language block

theorem lowerRegisterReturn_ok {id : String} {fields : List String}
    (h : (lowerRegisterReturn setting id fields).runFrom s = (.ok (), t)) :
    (setting.retval.kind = .base ∧
        ∃ type, s.Adds t [.scalar ⟨id, type, .register .rc⟩]) ∨
      (setting.retval.kind = .pointer ∧
        ∃ block, Chain id returnRegisterVariable block ∧ s.Adds t block) := by
  unfold lowerRegisterReturn at h
  dsimp only at h
  split at h
  next hkind =>
    obtain ⟨type, _, hquery, hadd⟩ := Step.runFrom_bind_ok.mp h
    obtain ⟨-, rfl⟩ := Prod.mk.inj hquery
    exact .inl ⟨hkind, type, Scope.adds_of_addVariable hadd⟩
  next hkind =>
    obtain ⟨_, _, hget, h⟩ := Step.runFrom_bind_ok.mp h
    cases hget
    split at h
    next => exact .inr ⟨hkind, chain_of_lowerAccessChain h⟩
    next => cases h
  next => cases h
  next => cases h

theorem block_of_lowerRegisterReturn {id : String} {fields : List String}
    (hlanguage : setting.language.returnsInRegister)
    (h : (lowerRegisterReturn setting id fields).runFrom s = (.ok (), t)) :
    ∃ block, ResultBlock id setting.language block ∧ s.Adds t block := by
  rcases lowerRegisterReturn_ok h with ⟨-, type, hadds⟩ | ⟨-, block, hblock, hadds⟩
  · exact ⟨_, .register hlanguage type, hadds⟩
  · exact ⟨block, .fromRegister hlanguage hblock, hadds⟩

theorem block_of_lowerReturnValue {value : Logical.ReturnValue}
    (h : (lowerReturnValue setting value).runFrom s = (.ok (), t)) :
    ∃ block, ResultBlock value.id setting.language block ∧ s.Adds t block := by
  unfold lowerReturnValue at h
  split at h
  next => cases h
  next expr _ =>
    split at h
    next => cases h
    next index _ =>
      split at h
      next hgo =>
        obtain ⟨info, _, hquery, hchain⟩ := Step.runFrom_bind_ok.mp h
        obtain ⟨-, rfl⟩ := Prod.mk.inj hquery
        obtain ⟨block, hblock, hadds⟩ := chain_of_lowerAccessChain hchain
        exact ⟨block, hgo ▸ .onStack hblock, hadds⟩
      next hc =>
        split at h
        next => exact block_of_lowerRegisterReturn (by rw [hc]; rfl) h
        next => cases h
      next hcpp =>
        split at h
        next => exact block_of_lowerRegisterReturn (by rw [hcpp]; rfl) h
        next => cases h
      next => cases h

end Expressions

end ProbeLowering
