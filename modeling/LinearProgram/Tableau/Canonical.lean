import LinearProgram.Tableau.Pivot

/-!
# Canonical tableaux

A basic tableau is canonical when its basis names one column for each constraint row, no column
twice, and each of these columns is a unit column of its row, zero in the objective row too.
Entries are compared as numbers.
-/

namespace LinearProgram

variable {α : Type} [Scalar α]

/-- the column is `1` in the row and `0` in all others, the objective row included -/
structure Tableau.UnitColumn (t : Tableau α) (row column : Nat) : Prop where
  one : t.cell row column == 1
  zero : ∀ i ≤ t.constraintCount, i ≠ row → t.cell i column == 0

namespace BasicTableau

/-- one column of the tableau for each constraint row -/
structure Fits (t : BasicTableau α) : Prop where
  length_eq : t.basis.length = t.constraintCount
  lt : ∀ column ∈ t.basis, column < t.variableCount

structure Canonical (t : BasicTableau α) : Prop extends t.Fits where
  nodup : t.basis.Nodup
  unit : ∀ i (h : i < t.basis.length), t.UnitColumn i t.basis[i]

/-- a pivot in a constraint row and the column of a variable keeps the shape -/
theorem Fits.pivot {t : BasicTableau α} (h : t.Fits) (row : Nat) {column : Nat}
    (hc : column < t.variableCount) : (t.pivot row column).Fits := by
  refine ⟨by simpa using h.length_eq, fun c hmem => ?_⟩
  rw [basis_pivot] at hmem
  rw [variableCount_pivot]
  rcases List.mem_or_eq_of_mem_set hmem with hmem | rfl
  · exact h.lt c hmem
  · exact hc

end BasicTableau

end LinearProgram
