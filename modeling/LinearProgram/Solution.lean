import LinearProgram.Tableau.Pivot

/-!
# Solutions

The basic solution of a tableau gives each basic variable the right side of its row and all other
variables zero.

* `BasicTableau.solution`    the basic solution;
* `BasicTableau.solution?`   undefined for a basis that does not fit the tableau.
-/

namespace LinearProgram

structure Solution (α : Type) where
  /-- one value per variable, slacks included -/
  values : List α
  /-- the objective at the solution, in the sense of the problem -/
  objectiveValue : α
  deriving DecidableEq

/-- the values of the first `count` variables: those of the problem before slacks were appended -/
def Solution.leadingValues {α : Type} (s : Solution α) (count : Nat) : List α :=
  s.values.take count

namespace BasicTableau

variable {α : Type} [Scalar α]

/-- the right sides written at the basic columns, row after row -/
def basicValues (t : BasicTableau α) : List α :=
  t.basis.zipIdx.foldl (fun values (column, row) => values.set column (t.rhs row))
    (List.replicate t.variableCount 0)

def solution (t : BasicTableau α) : Solution α := ⟨t.basicValues, t.objectiveValue⟩

/-- every entry of the basis has a row and names a column -/
def BasisFits (t : BasicTableau α) : Prop :=
  t.basis.length ≤ t.constraintCount + 1 ∧ ∀ column ∈ t.basis, column < t.variableCount

instance (t : BasicTableau α) : Decidable t.BasisFits := inferInstanceAs (Decidable (_ ∧ _))

def solution? (t : BasicTableau α) : Option (Solution α) :=
  if t.BasisFits then some t.solution else none

omit [Scalar α] in
theorem length_foldl_set (f : Nat → α) (l : List (Nat × Nat)) (values : List α) :
    (l.foldl (fun vs a => vs.set a.1 (f a.2)) values).length = values.length := by
  induction l generalizing values with
  | nil => rfl
  | cons a l ih => rw [List.foldl_cons, ih, List.length_set]

@[simp] theorem length_basicValues (t : BasicTableau α) :
    t.basicValues.length = t.variableCount :=
  (length_foldl_set t.rhs _ _).trans List.length_replicate

end BasicTableau

end LinearProgram
