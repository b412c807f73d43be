import LinearProgram.Problem.Dual
import LinearProgram.Problem.StandardForm
import LinearProgram.Solver.Event

/-!
# Reformulations of a problem

The four reformulations under one name, with what they report.
-/

namespace LinearProgram

inductive Reformulation where
  | standard
  | dualStandard
  | prepare
  | dual
  deriving DecidableEq

namespace Reformulation

variable {α : Type} [Scalar α]

def apply (r : Reformulation) (p : Problem α) : Except (Failure α) (Problem α × List (Event α)) :=
  match r with
  | standard => .ok (p.standardForm, [.toEqualities p p.standardForm])
  | dualStandard => .ok (p.dualStandardForm, [.toEqualities p p.dualStandardForm])
  | prepare => p.prepared.map (·, [])
  | dual =>
    p.dual.map fun d => (d, [.dualBuilt d.variableCount d.constraintCount d.sense])

end Reformulation

end LinearProgram
