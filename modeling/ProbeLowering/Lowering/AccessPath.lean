/-!
# Access paths

The way from the root of an expression to an intermediate value.  Its text
names the variable that holds the value.
-/

namespace ProbeLowering

inductive PathStep where
  | field (name : String)
  | deref
  deriving DecidableEq, Repr

def PathStep.display : PathStep → String
  | field name => "_D_" ++ name
  | deref => "_X_"

structure AccessPath where
  root : String
  steps : List PathStep := []
  deriving DecidableEq, Repr

namespace AccessPath

def push (path : AccessPath) (step : PathStep) : AccessPath :=
  { path with steps := path.steps ++ [step] }

def derefCount (path : AccessPath) : Nat :=
  path.steps.countP (· == .deref)

def display (path : AccessPath) : String :=
  path.root ++ String.join (path.steps.map PathStep.display)

end AccessPath

end ProbeLowering
