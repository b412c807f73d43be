import LinearProgram.Proofs.Tableau.RatioTest
import LinearProgram.Proofs.Tableau.Represents

/-!
# The value of a tableau

A pivot takes a multiple of the leaving row off the objective row, so the value changes by the
ratio of that row times the cost that is cancelled: it grows under the primal method and falls under
the dual one.

* `value_pivot`           the value after a pivot;
* `value_le_pivot`, `value_lt_pivot_iff`   the pivots of the primal method;
* `value_pivot_le`, `value_pivot_lt_iff`   those of the dual method.
-/

namespace LinearProgram

namespace BasicTableau

variable {t : BasicTableau Rat} {row column : Nat}

/-! ### a pivot -/

theorem value_pivot (hr : row < t.constraintCount) (hpivot : t.cell row column ≠ 0) :
    (t.pivot row column).value =
      t.value - t.cell t.constraintCount column * (t.rhs row / t.cell row column) := by
  rw [Tableau.value, Tableau.rhs, Tableau.rhsColumn, constraintCount_pivot, variableCount_pivot,
    cell_pivot hr.le hpivot le_rfl le_rfl, if_neg (by omega)]
  rfl

section
variable (hentering : t.enteringColumn 0 = some column) (hleaving : t.leavingRow column 0 = some row)
include hentering hleaving

/-- a pivot of the primal method adds a positive multiple of the right side of its row -/
theorem exists_value_pivot :
    ∃ c : Rat, 0 < c ∧ (t.pivot row column).value = t.value + c * t.rhs row := by
  have hentry : 0 < t.cell row column := Tableau.leavingRow_beyond hleaving
  have hcost : t.cell t.constraintCount column < 0 := by
    have hbelow := Tableau.enteringColumn_below hentering
    rwa [neg_zero] at hbelow
  refine ⟨-t.cell t.constraintCount column / t.cell row column,
    div_pos (neg_pos.2 hcost) hentry, ?_⟩
  rw [value_pivot (Tableau.leavingRow_lt hleaving) hentry.ne']
  ring

theorem value_le_pivot (hrhs : 0 ≤ t.rhs row) : t.value ≤ (t.pivot row column).value := by
  obtain ⟨c, hc, hvalue⟩ := exists_value_pivot hentering hleaving
  rw [hvalue]
  exact le_add_of_nonneg_right (mul_nonneg hc.le hrhs)

theorem value_lt_pivot_iff : t.value < (t.pivot row column).value ↔ 0 < t.rhs row := by
  obtain ⟨c, hc, hvalue⟩ := exists_value_pivot hentering hleaving
  rw [hvalue, lt_add_iff_pos_right, mul_pos_iff_of_pos_left hc]

end

section
variable (hleaving : t.dualLeavingRow 0 = some row)
  (hentering : t.dualEnteringColumn row 0 = some column)
include hleaving hentering

/-- a pivot of the dual method takes off a positive multiple of the cost of its column -/
theorem exists_value_dual_pivot :
    ∃ c : Rat, 0 < c ∧
      (t.pivot row column).value = t.value - c * t.cell t.constraintCount column := by
  have hr := Tableau.dualLeavingRow_lt hleaving
  have hrhs : t.rhs row < 0 := by
    have hbelow := Tableau.dualLeavingRow_below hleaving
    rwa [neg_zero] at hbelow
  have hentry : t.cell row column < 0 := by
    have hbeyond := Tableau.dualEnteringColumn_beyond hr.le hentering
    rwa [neg_zero] at hbeyond
  refine ⟨t.rhs row / t.cell row column, div_pos_of_neg_of_neg hrhs hentry, ?_⟩
  rw [value_pivot hr hentry.ne, mul_comm]

theorem value_pivot_le (hcost : 0 ≤ t.cell t.constraintCount column) :
    (t.pivot row column).value ≤ t.value := by
  obtain ⟨c, hc, hvalue⟩ := exists_value_dual_pivot hleaving hentering
  rw [hvalue]
  exact sub_le_self _ (mul_nonneg hc.le hcost)

theorem value_pivot_lt_iff :
    (t.pivot row column).value < t.value ↔ 0 < t.cell t.constraintCount column := by
  obtain ⟨c, hc, hvalue⟩ := exists_value_dual_pivot hleaving hentering
  rw [hvalue, sub_lt_self_iff, mul_pos_iff_of_pos_left hc]

end

end BasicTableau

end LinearProgram
