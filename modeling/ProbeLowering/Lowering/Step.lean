import ProbeLowering.Lowering.Error

/-!
# Lowering steps

A step changes a state and may fail.  What it changed before it failed stays
changed: a later step sees it, and so does whoever looks at the state after
the failure.
-/

namespace ProbeLowering

abbrev Step (σ α : Type) := ExceptT LowerError (StateM σ) α

namespace Step

variable {σ τ α : Type}

def runFrom (step : Step σ α) (state : σ) : Except LowerError α × σ :=
  step.run.run state

/-- Asks the state a question that may fail; the state stays as it is. -/
def query (f : σ → Except LowerError α) : Step σ α :=
  fun state => (f state, state)

def update (f : σ → Except LowerError σ) : Step σ Unit :=
  fun state =>
    match f state with
    | .ok next => (.ok (), next)
    | .error e => (.error e, state)

def within (part : σ → τ) (replace : σ → τ → σ) (step : Step τ α) : Step σ α :=
  fun state =>
    let (outcome, next) := step (part state)
    (outcome, replace state next)

end Step

end ProbeLowering
