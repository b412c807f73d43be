import Mathlib.Algebra.Order.Archimedean.Basic
import Mathlib.Algebra.Order.BigOperators.Group.Finset
import LinearProgram.Proofs.Tableau.Direction

/-!
# Verdicts that a tableau proves

A tableau refutes its problem by one row, and shows it unbounded by one column.

* `Represents.unbounded_of_direction`   a direction that no row bars and that improves for ever;
* `Represents.unbounded_of_column`      a column without a positive entry, with a negative cost;
* `not_nonneg_of_row`                   a row without a negative entry, with a negative right side;
* `Represents.infeasible_of_row`        the problem of such a row.
-/

namespace LinearProgram

namespace BasicTableau

variable {t : BasicTableau Rat} {p : Problem Rat}

theorem Represents.unbounded_of_direction (h : t.Represents p)
    (hrhs : ∀ i < t.constraintCount, 0 ≤ t.rhs i) {d : List Rat} (hd : d.length = t.variableCount)
    (hnonneg : ∀ v ∈ d, 0 ≤ v) (hrows : ∀ i < t.constraintCount, dot (t.coefficients i) d ≤ 0)
    (hcost : dot t.costs d < 0) : p.Unbounded := by
  intro bound
  have hgain : 0 < -dot t.costs d := neg_pos.2 hcost
  -- steps so long that the gain makes up for the way to the bound
  obtain ⟨n, hn⟩ := exists_nat_gt ((p.sense.sign * bound - t.value) / -dot t.costs d)
  rw [div_lt_iff₀ hgain] at hn
  have he : (0 : Rat) ≤ n := Nat.cast_nonneg n
  obtain ⟨y, hy, hcosts⟩ := h.feasible_along hd hnonneg he fun i hi =>
    (mul_nonpos_of_nonneg_of_nonpos he (hrows i hi)).trans (hrhs i hi)
  refine ⟨y, hy, (p.sense.beats_iff _ _).2 ?_⟩
  rw [h.objectiveAt_eq hy.toSatisfies, hcosts, mul_sub, Sense.sign_mul_sign_mul]
  linarith

theorem Represents.unbounded_of_column (h : t.Represents p)
    (hrhs : ∀ i < t.constraintCount, 0 ≤ t.rhs i) {column : Nat} (hc : column < t.variableCount)
    (hentries : ∀ i < t.constraintCount, t.cell i column ≤ 0)
    (hcost : t.cell t.constraintCount column < 0) : p.Unbounded := by
  apply h.unbounded_of_direction hrhs (length_axis _ column) (axis_nonneg _ column)
  · intro i hi
    rw [dot_axis hc, getD_coefficients hc]
    exact hentries i hi
  · rw [dot_axis hc, getD_costs hc]
    exact hcost

/-- a row without a negative entry bars all points where its right side is negative -/
theorem not_nonneg_of_row {row : Nat} (hrow : row < t.constraintCount)
    (hentries : ∀ j < t.variableCount, 0 ≤ t.cell row j) (hrhs : t.rhs row < 0) {x : List Rat}
    (hx : t.Satisfies x) : ¬ ∀ v ∈ x, 0 ≤ v := by
  intro hnonneg
  -- the left side of the row adds up products that are not negative
  have hsum : 0 ≤ dot (t.coefficients row) x := by
    rw [dot_coefficients hx.length_eq]
    apply Finset.sum_nonneg
    intro j hj
    have hj := Finset.mem_range.1 hj
    have hjx : j < x.length := by rw [hx.length_eq]; exact hj
    rw [getD_of_lt hjx]
    exact mul_nonneg (hentries j hj) (hnonneg _ (List.getElem_mem hjx))
  rw [hx.holds row hrow] at hsum
  exact not_le.2 hrhs hsum

theorem Represents.infeasible_of_row (h : t.Represents p) {row : Nat}
    (hrow : row < t.constraintCount) (hentries : ∀ j < t.variableCount, 0 ≤ t.cell row j)
    (hrhs : t.rhs row < 0) (x : List Rat) : ¬ p.Feasible x := by
  intro hx
  exact not_nonneg_of_row hrow hentries hrhs ((h.satisfies_iff x).2 hx.toSatisfies) hx.nonneg

end BasicTableau

end LinearProgram
