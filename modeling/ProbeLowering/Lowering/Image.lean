import ProbeLowering.Dwarf.Facts
import ProbeLowering.Files.Host
import ProbeLowering.Lowering.Deployment

/-!
# Lowering against an image

The facts come from the image that the deployment names.  A deployment that
cannot be lowered whatever the facts are is refused before the image is read.
-/

namespace ProbeLowering

open DebugInfo

def Host.imageFacts {m : Type → Type} [Monad m] (host : Host m) (path : String) :
    m (Except LookupError Facts) := do
  match ← host.read path with
  | .error e => pure (.error (.io e.detail))
  | .ok file => pure (Dwarf.openFacts path file)

def lowerFromImage {m : Type → Type} [Monad m] (host : Host m)
    (deployment : Logical.Deployment) : m (Except LowerError Physical.Program) := do
  match deployment.program? with
  | .error e => pure (.error e)
  | .ok _ =>
      match ← host.imageFacts deployment.target.path with
      | .error e => pure (.error (.debugInfo e))
      | .ok facts => pure (lowerDeployment facts deployment)

end ProbeLowering
