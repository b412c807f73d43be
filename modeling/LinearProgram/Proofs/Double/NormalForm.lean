import LinearProgram.Proofs.Double.Total
import LinearProgram.Proofs.Problem.NormalForm
import LinearProgram.Proofs.Problem.SlackColumns

/-!
# The standard form in doubles

The sign of a right side decides whether its row is turned, and a double that is a number is not
below zero, or its negation is not.  Both zeros pass for not negative and stay as they are, and so
does infinity.

* `standardForm_normal`   what the standard form looks like, and that it is its own.
-/

namespace LinearProgram

namespace Problem

/-- Right sides that are numbers have a standard form of equalities with right sides that are not
negative.  It has a column more for each inequality, in the order of the rows, and in that column
nothing but zeros and a one or minus one in the row of the inequality; its objective is that of the
problem and zeros.  It is its own standard form, to the bit. -/
theorem standardForm_normal {p : Problem Float} (hrhs : ∀ c ∈ p.constraints, c.rhs.isNaN = false) :
    (∀ d ∈ p.standardForm.constraints, d.relation = .equal) ∧
    (∀ d ∈ p.standardForm.constraints, 0 ≤ d.rhs) ∧
    p.standardForm.variableCount = p.variableCount + p.inequalityCount ∧
    (∀ i c, p.constraints[i]? = some c → c.isInequality → ∃ s : Float, (s = 1 ∨ s = -1) ∧
      columnOf p.standardForm.matrix (p.variableCount + p.inequalitiesAbove i) =
        (List.replicate p.constraintCount (some 0)).set i (some s)) ∧
    p.standardForm.objective = p.objective ++ List.replicate p.inequalityCount 0 ∧
    p.standardForm.standardForm = p.standardForm := by
  have hnormal : p.standardForm.NormalForm :=
    normalForm_standardForm fun c hc h => Double.neg_nonneg_of_not (hrhs c hc) h
  refine ⟨hnormal.relation_eq, hnormal.rhs_nonneg, variableCount_equalities _ _ p, ?_, rfl,
    hnormal.standardForm_eq⟩
  intro i c hget hineq
  obtain ⟨hi, rfl⟩ := List.getElem?_eq_some_iff.1 hget
  rw [← Constraint.isInequality_turned (withNonnegRhs_turned _)] at hineq
  obtain ⟨s, hslack, hs⟩ := Constraint.exists_slack hineq
  exact ⟨s, hs, columnOf_equalities _ withNonnegRhs_turned hi hslack⟩

/-- a negative zero, an equality to turn with a NaN in it, infinity, and a surplus -/
def roughRows : Problem Float :=
  ⟨[1, 0 / 0], .minimize, [⟨[1, 2], .lessEqual, -0.0⟩, ⟨[3, 0 / 0], .equal, -3⟩,
    ⟨[-0.0, 1], .greaterEqual, -1 / 0⟩, ⟨[1, 1], .greaterEqual, 2⟩], by decide⟩

theorem standardForm_normal_roughRows :
    (∀ c ∈ roughRows.constraints, c.rhs.isNaN = false) ∧
    roughRows.standardForm.constraints = [⟨[1, 2, 1, 0, 0], .equal, -0.0⟩,
      ⟨[-3, 0 / 0, 0, 0, 0], .equal, 3⟩, ⟨[0, -1, 0, 1, 0], .equal, 1 / 0⟩,
      ⟨[1, 1, 0, 0, -1], .equal, 2⟩] ∧
    (∃ s : Float, (s = 1 ∨ s = -1) ∧
      columnOf roughRows.standardForm.matrix 4 = [some 0, some 0, some 0, some s]) ∧
    roughRows.standardForm.standardForm = roughRows.standardForm := by
  have hrhs : ∀ c ∈ roughRows.constraints, c.rhs.isNaN = false := by decide +kernel
  obtain ⟨-, -, -, hcolumn, -, hsame⟩ := standardForm_normal hrhs
  exact ⟨hrhs, by decide +kernel, hcolumn 3 _ rfl rfl, hsame⟩

end Problem

end LinearProgram
