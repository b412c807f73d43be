/-!
# Why a transform or a solve cannot go on

Every cause lies in the structure of the input; a solve that meets one stops for good.
`Failure.message` words a cause, given how numbers are written.
-/

namespace LinearProgram

/-- the length that was found wrong -/
inductive Dimension where
  | constraintRows
  | relations
  | constraintColumns
  | tableauColumns
  | basis
  | basisColumn
  deriving DecidableEq

def Dimension.text : Dimension → String
  | constraintRows => "constraint rows"
  | relations => "relations"
  | constraintColumns => "constraint columns"
  | tableauColumns => "tableau columns"
  | basis => "basis"
  | basisColumn => "basis column"

inductive Failure (α : Type) where
  | dimensionMismatch (what : Dimension) (expected found : Nat)
  /-- the dual takes inequalities only -/
  | equalityInDual (row : Nat)
  | notStandardForm (row : Nat)
  /-- only `found` of the `needed` rows own a unit column -/
  | noInitialBasis (found needed : Nat)
  /-- an objective coefficient has the wrong sign for the dual method -/
  | noStartingSolution (column : Nat) (value : α)
  | unbounded (column : Nat)
  | infeasible (row : Nat)
  | iterationLimit (limit : Nat)
  deriving DecidableEq

namespace Failure

def message {α : Type} (number : α → String) : Failure α → String
  | dimensionMismatch what expected found =>
    s!"Dimension mismatch in {what.text}: expected {expected}, found {found}"
  | equalityInDual row =>
    s!"Constraint {row} is an equality, which the dual form does not accept"
  | notStandardForm row =>
    s!"Constraint {row} is not an equality; convert the task to standard form first"
  | noInitialBasis found needed =>
    s!"No initial basis: found {found} unit columns for {needed} constraints"
  | noStartingSolution column value =>
    s!"There is no starting solution: objective coefficient {column} is {number value}"
  | unbounded column => s!"The problem is unbounded: column {column} has no positive entry"
  | infeasible row => s!"The problem is infeasible: row {row} has no eligible entering column"
  | iterationLimit limit => s!"Iteration limit of {limit} reached without an optimal tableau"

end Failure

end LinearProgram
