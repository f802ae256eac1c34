import Mathlib.Order.Defs.Unbundled
import ProbeLowering.Lowering.Step

/-!
# Runs of steps

Equations for the runs of composed steps, and the shapes in which facts about
runs are stated.  A successful run of a sequence splits into successful runs of
its members.  A preorder on states that every member of a sequence respects,
whether it succeeds or fails, is respected by the sequence (`Step.Keeps`).  What
a successful run makes of a condition is composed along binds (`Step.Ensures`), and
so are the errors that a run can fail with (`Step.Raises`) and the agreement of a step
with one that succeeds more often (`Step.Refines`).
-/

namespace ProbeLowering

namespace Step

variable {σ τ α β : Type}

@[simp] theorem runFrom_pure (a : α) (s : σ) :
    runFrom (pure a : Step σ α) s = (.ok a, s) := rfl

@[simp] theorem runFrom_throw (e : LowerError) (s : σ) :
    runFrom (throw e : Step σ α) s = (.error e, s) := rfl

@[simp] theorem runFrom_get (s : σ) :
    runFrom (get : Step σ σ) s = (.ok s, s) := rfl

@[simp] theorem runFrom_modify (f : σ → σ) (s : σ) :
    runFrom (modify f : Step σ Unit) s = (.ok (), f s) := rfl

@[simp] theorem runFrom_query (f : σ → Except LowerError α) (s : σ) :
    runFrom (query f) s = (f s, s) := rfl

theorem runFrom_update (f : σ → Except LowerError σ) (s : σ) :
    runFrom (update f) s =
      match f s with
      | .ok next => (.ok (), next)
      | .error e => (.error e, s) := rfl

theorem runFrom_bind (step : Step σ α) (next : α → Step σ β) (s : σ) :
    runFrom (step >>= next) s =
      match step.runFrom s with
      | (.ok a, t) => (next a).runFrom t
      | (.error e, t) => (.error e, t) := by
  change ExceptT.bindCont next (step s).1 (step s).2 =
    match step s with
    | (.ok a, t) => (next a).runFrom t
    | (.error e, t) => (.error e, t)
  rcases step s with ⟨outcome, t⟩
  cases outcome <;> rfl

theorem runFrom_bind_ok {step : Step σ α} {next : α → Step σ β} {s u : σ}
    {b : β} :
    runFrom (step >>= next) s = (.ok b, u) ↔
      ∃ a t, step.runFrom s = (.ok a, t) ∧ (next a).runFrom t = (.ok b, u) := by
  rw [runFrom_bind]
  cases hstep : step.runFrom s with
  | mk outcome t =>
      cases outcome with
      | error e => simp
      | ok a =>
          constructor
          · intro h
            exact ⟨a, t, rfl, h⟩
          · rintro ⟨_, _, hrun, hnext⟩
            cases hrun
            exact hnext

theorem runFrom_update_ok {f : σ → Except LowerError σ} {s t : σ} :
    runFrom (update f) s = (.ok (), t) ↔ f s = .ok t := by
  rw [runFrom_update]
  cases f s <;> simp

def sequence : List (Step σ Unit) → Step σ Unit
  | [] => pure ()
  | step :: rest => do
      step
      sequence rest

@[simp] theorem sequence_nil :
    sequence ([] : List (Step σ Unit)) = pure () := rfl

@[simp] theorem sequence_singleton (step : Step σ Unit) :
    sequence [step] = step := by
  simp [sequence]

theorem forM_eq_sequence (f : β → Step σ Unit) (xs : List β) :
    xs.forM f = sequence (xs.map f) := by
  induction xs with
  | nil => rfl
  | cons x xs ih =>
      change (do f x; xs.forM f) = _
      rw [ih]
      rfl

theorem sequence_append (first second : List (Step σ Unit)) :
    sequence (first ++ second) = (do sequence first; sequence second) := by
  induction first with
  | nil => simp [sequence]
  | cons step rest ih => simp [sequence, ih]

theorem runFrom_sequence_cons_ok {step : Step σ Unit} {rest : List (Step σ Unit)}
    {s u : σ} :
    (sequence (step :: rest)).runFrom s = (.ok (), u) ↔
      ∃ t, step.runFrom s = (.ok (), t) ∧
        (sequence rest).runFrom t = (.ok (), u) := by
  simp only [sequence, runFrom_bind_ok]
  exact ⟨fun ⟨_, t, h⟩ => ⟨t, h⟩, fun ⟨t, h⟩ => ⟨(), t, h⟩⟩

theorem runFrom_sequence_append_ok {first second : List (Step σ Unit)} {s u : σ} :
    (sequence (first ++ second)).runFrom s = (.ok (), u) ↔
      ∃ t, (sequence first).runFrom s = (.ok (), t) ∧
        (sequence second).runFrom t = (.ok (), u) := by
  rw [sequence_append, runFrom_bind_ok]
  exact ⟨fun ⟨_, t, h⟩ => ⟨t, h⟩, fun ⟨t, h⟩ => ⟨(), t, h⟩⟩

theorem runFrom_sequence_error {steps : List (Step σ Unit)} {s u : σ} {e : LowerError} :
    (sequence steps).runFrom s = (.error e, u) ↔
      ∃ before step after t, steps = before ++ step :: after ∧
        (sequence before).runFrom s = (.ok (), t) ∧ step.runFrom t = (.error e, u) := by
  constructor
  · intro h
    induction steps generalizing s with
    | nil => cases h
    | cons step rest ih =>
        rw [sequence, runFrom_bind] at h
        rcases hstep : step.runFrom s with ⟨_ | _, t⟩
        · rw [hstep] at h
          exact ⟨[], step, rest, s, rfl, rfl, hstep.trans h⟩
        · rw [hstep] at h
          obtain ⟨before, failing, after, t', rfl, hbefore, hfailing⟩ := ih h
          exact ⟨step :: before, failing, after, t', rfl,
            runFrom_sequence_cons_ok.mpr ⟨t, hstep, hbefore⟩, hfailing⟩
  · rintro ⟨before, step, after, t, rfl, hbefore, hstep⟩
    simp [sequence_append, sequence, runFrom_bind, hbefore, hstep]

/-! ## Relations that runs respect -/

/-- However the step ends, it leaves a state that is related to the one before. -/
def Keeps (R : σ → σ → Prop) (step : Step σ α) : Prop :=
  ∀ s, R s (step.runFrom s).2

namespace Keeps

variable {R : σ → σ → Prop}

theorem of_run {step : Step σ α} (h : Keeps R step) {s t : σ}
    {outcome : Except LowerError α} (hrun : step.runFrom s = (outcome, t)) :
    R s t := by
  have := h s
  rwa [hrun] at this

variable [IsPreorder σ R]

theorem pure (a : α) : Keeps R (pure a : Step σ α) := fun s => refl_of R s

theorem throw (e : LowerError) : Keeps R (throw e : Step σ α) :=
  fun s => refl_of R s

theorem get : Keeps R (get : Step σ σ) := fun s => refl_of R s

theorem query (f : σ → Except LowerError α) : Keeps R (query f) :=
  fun s => refl_of R s

theorem update {f : σ → Except LowerError σ}
    (h : ∀ s t, f s = .ok t → R s t) : Keeps R (update f) := by
  intro s
  rw [runFrom_update]
  cases hf : f s with
  | error e => exact refl_of R s
  | ok t => exact h s t hf

theorem bind {step : Step σ α} {next : α → Step σ β} (h : Keeps R step)
    (hnext : ∀ a, Keeps R (next a)) : Keeps R (step >>= next) := by
  intro s
  rw [runFrom_bind]
  cases hstep : step.runFrom s with
  | mk outcome t =>
      have hst : R s t := h.of_run hstep
      cases outcome with
      | error e => exact hst
      | ok a => exact trans_of R hst (hnext a t)

omit [IsPreorder σ R] in
theorem ite {c : Prop} [Decidable c] {first second : Step σ α}
    (h : Keeps R first) (h' : Keeps R second) :
    Keeps R (if c then first else second) := by
  split
  · exact h
  · exact h'

theorem sequence {steps : List (Step σ Unit)} (h : ∀ step ∈ steps, Keeps R step) :
    Keeps R (sequence steps) := by
  induction steps with
  | nil => exact Keeps.pure ()
  | cons step rest ih =>
      refine (h step (by simp)).bind fun _ => ih ?_
      intro next hnext
      exact h next (by simp [hnext])

theorem forM {f : β → Step σ Unit} {xs : List β} (h : ∀ x, Keeps R (f x)) :
    Keeps R (xs.forM f) := by
  rw [forM_eq_sequence]
  refine Keeps.sequence ?_
  intro step hstep
  obtain ⟨x, -, rfl⟩ := List.mem_map.mp hstep
  exact h x

end Keeps

theorem exists_run_of_mem {R : σ → σ → Prop} [IsPreorder σ R]
    {steps : List (Step σ Unit)} (h : ∀ step ∈ steps, Keeps R step)
    {step : Step σ Unit} (hmem : step ∈ steps) {s u : σ}
    (hrun : (sequence steps).runFrom s = (.ok (), u)) :
    ∃ t t', R s t ∧ step.runFrom t = (.ok (), t') ∧ R t' u := by
  obtain ⟨before, after, rfl⟩ := List.append_of_mem hmem
  obtain ⟨t, hbefore, hrest⟩ := runFrom_sequence_append_ok.mp hrun
  obtain ⟨t', hstep, hafter⟩ := runFrom_sequence_cons_ok.mp hrest
  refine ⟨t, t', ?_, hstep, ?_⟩
  · exact (Keeps.sequence fun x hx => h x (by simp [hx])).of_run hbefore
  · exact (Keeps.sequence fun x hx => h x (by simp [hx])).of_run hafter

/-- If the step succeeds from a state with `P`, then `Q` holds of its answer and its end. -/
def Ensures (P : σ → Prop) (step : Step σ α) (Q : α → σ → Prop) : Prop :=
  ∀ s a t, P s → step.runFrom s = (.ok a, t) → Q a t

namespace Ensures

variable {P P' : σ → Prop} {Q : α → σ → Prop} {R : β → σ → Prop}

theorem of_imp {step : Step σ α} (h : Ensures P step Q) (hP : ∀ s, P' s → P s) :
    Ensures P' step Q :=
  fun s a t hs => h s a t (hP s hs)

theorem pure {a : α} (h : ∀ s, P s → Q a s) : Ensures P (pure a : Step σ α) Q := by
  rintro s _ _ hs ⟨⟩
  exact h s hs

theorem throw (e : LowerError) : Ensures P (throw e : Step σ α) Q := by
  rintro s _ _ hs ⟨⟩

theorem query (f : σ → Except LowerError α) : Ensures P (query f) fun _ => P := by
  intro s a t hs h
  obtain ⟨-, rfl⟩ := Prod.mk.inj h
  exact hs

theorem bind {step : Step σ α} {next : α → Step σ β} (h : Ensures P step Q)
    (hnext : ∀ a, Ensures (Q a) (next a) R) : Ensures P (step >>= next) R := by
  intro s b u hs hrun
  obtain ⟨a, t, hstep, hrest⟩ := runFrom_bind_ok.mp hrun
  exact hnext a t b u (h s a t hs hstep) hrest

theorem get_bind {next : σ → Step σ β} (h : ∀ s, P s → Ensures (· = s) (next s) R) :
    Ensures P (get >>= next) R := by
  intro s b u hs hrun
  exact h s hs s b u rfl hrun

theorem ite {c : Prop} [Decidable c] {first second : Step σ α}
    (h : c → Ensures P first Q) (h' : ¬c → Ensures P second Q) :
    Ensures P (if c then first else second) Q := by
  split
  next hc => exact h hc
  next hc => exact h' hc

theorem sequence {steps : List (Step σ Unit)}
    (h : ∀ step ∈ steps, Ensures P step fun _ => P) :
    Ensures P (sequence steps) fun _ => P := by
  induction steps with
  | nil => exact .pure fun _ hs => hs
  | cons step rest ih =>
      exact (h step (by simp)).bind fun _ => ih fun next hnext => h next (by simp [hnext])

/-- What one member establishes and every member keeps holds after the sequence. -/
theorem sequence_of_mem {S : σ → Prop} {steps : List (Step σ Unit)}
    (hP : ∀ step ∈ steps, Ensures P step fun _ => P)
    (hS : ∀ step ∈ steps, Ensures S step fun _ => S) {step : Step σ Unit}
    (hmem : step ∈ steps) (h : Ensures P step fun _ => S) :
    Ensures P (Step.sequence steps) fun _ => S := by
  obtain ⟨before, after, rfl⟩ := List.append_of_mem hmem
  rw [sequence_append]
  refine (sequence fun next hnext => hP next (by simp [hnext])).bind fun _ => ?_
  exact h.bind fun _ => sequence fun next hnext => hS next (by simp [hnext])

end Ensures

/-! ## Errors of a step -/

def Raises (P : LowerError → Prop) (step : Step σ α) : Prop :=
  ∀ s e t, step.runFrom s = (.error e, t) → P e

namespace Raises

variable {P Q : LowerError → Prop}

theorem of_imp {step : Step σ α} (h : Raises P step) (hPQ : ∀ e, P e → Q e) :
    Raises Q step :=
  fun s e t hrun => hPQ e (h s e t hrun)

theorem pure (a : α) : Raises P (pure a : Step σ α) := by
  rintro s e t ⟨⟩

theorem throw {e : LowerError} (h : P e) : Raises P (throw e : Step σ α) := by
  rintro s _ t ⟨⟩
  exact h

theorem get : Raises P (get : Step σ σ) := by
  rintro s e t ⟨⟩

theorem modify (f : σ → σ) : Raises P (modify f : Step σ Unit) := by
  rintro s e t ⟨⟩

theorem query {f : σ → Except LowerError α} (h : ∀ s e, f s = .error e → P e) :
    Raises P (query f) := by
  intro s e t hrun
  exact h s e (Prod.mk.inj hrun).1

theorem update {f : σ → Except LowerError σ} (h : ∀ s e, f s = .error e → P e) :
    Raises P (update f) := by
  intro s e t hrun
  rw [runFrom_update] at hrun
  cases hf : f s with
  | ok next => simp [hf] at hrun
  | error found =>
      obtain ⟨rfl, -⟩ : found = e ∧ s = t := by simpa [hf] using hrun
      exact h s found hf

theorem bind {step : Step σ α} {next : α → Step σ β} (h : Raises P step)
    (hnext : ∀ a, Raises P (next a)) : Raises P (step >>= next) := by
  intro s e u hrun
  rw [runFrom_bind] at hrun
  rcases hstep : step.runFrom s with ⟨found | a, t⟩
  · rw [hstep] at hrun
    cases hrun
    exact h s e u hstep
  · rw [hstep] at hrun
    exact hnext a t e u hrun

theorem ite {c : Prop} [Decidable c] {first second : Step σ α} (h : Raises P first)
    (h' : Raises P second) : Raises P (if c then first else second) := by
  split
  · exact h
  · exact h'

theorem sequence {steps : List (Step σ Unit)} (h : ∀ step ∈ steps, Raises P step) :
    Raises P (sequence steps) := by
  intro s e u hrun
  obtain ⟨before, step, after, t, rfl, -, hstep⟩ := runFrom_sequence_error.mp hrun
  exact h step (by simp) t e u hstep

theorem forM {f : β → Step σ Unit} {xs : List β} (h : ∀ x, Raises P (f x)) :
    Raises P (xs.forM f) := by
  rw [forM_eq_sequence]
  refine Raises.sequence fun step hstep => ?_
  obtain ⟨x, -, rfl⟩ := List.mem_map.mp hstep
  exact h x

end Raises

/-- Where `step` succeeds, `other` succeeds with the same answer and the same state. -/
def Refines (step other : Step σ α) : Prop :=
  ∀ s a t, step.runFrom s = (.ok a, t) → other.runFrom s = (.ok a, t)

namespace Refines

theorem refl (step : Step σ α) : Refines step step := fun _ _ _ h => h

theorem query {f g : σ → Except LowerError α} (h : ∀ s a, f s = .ok a → g s = .ok a) :
    Refines (query f) (query g) := by
  intro s a t hrun
  obtain ⟨hf, rfl⟩ := Prod.mk.inj hrun
  rw [runFrom_query, h s a hf]

theorem bind {step other : Step σ α} {next next' : α → Step σ β} (h : Refines step other)
    (hnext : ∀ a, Refines (next a) (next' a)) :
    Refines (step >>= next) (other >>= next') := by
  intro s b u hrun
  obtain ⟨a, t, hstep, hrest⟩ := runFrom_bind_ok.mp hrun
  exact runFrom_bind_ok.mpr ⟨a, t, h s a t hstep, hnext a t b u hrest⟩

theorem ite {c : Prop} [Decidable c] {first first' second second' : Step σ α}
    (h : Refines first first') (h' : Refines second second') :
    Refines (if c then first else second) (if c then first' else second') := by
  split
  · exact h
  · exact h'

theorem sequence {f g : β → Step σ Unit} {xs : List β} (h : ∀ x ∈ xs, Refines (f x) (g x)) :
    Refines (sequence (xs.map f)) (sequence (xs.map g)) := by
  induction xs with
  | nil => exact refl _
  | cons x xs ih =>
      exact (h x (by simp)).bind fun _ => ih fun y hy => h y (by simp [hy])

end Refines

end Step

end ProbeLowering
