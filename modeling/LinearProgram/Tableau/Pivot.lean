import LinearProgram.Tableau

/-!
# Pivoting

A basic tableau comes with its basis: the basic column of each constraint row.  A pivot on an
entry divides its row by it and takes multiples of that row off all others until the column is
zero there, and the column becomes basic in the row.  The column itself is written and not
computed: exactly `1` in the row, and exactly `0` in every row that changes.

* `pivot`              on any indices; entries outside of the grid count as `0`;
* `pivot?`             undefined where an index lies outside of the grid or of the basis;
* `Tableau.cell_clear_self`, `Tableau.cell_clear_of_ne`   the entries of the new tableau.
-/

namespace LinearProgram

/-- a tableau with the basic column of each of its constraint rows -/
structure BasicTableau (α : Type) extends Tableau α where
  basis : List Nat

theorem BasicTableau.ext_rows {α : Type} {s t : BasicTableau α} (hrows : s.rows = t.rows)
    (hsense : s.sense = t.sense) (hbasis : s.basis = t.basis) : s = t := by
  obtain ⟨s, bs⟩ := s
  obtain ⟨t, bt⟩ := t
  obtain rfl : bs = bt := hbasis
  obtain rfl : s = t := Tableau.ext_rows hrows hsense
  rfl

variable {α : Type} [Scalar α]

/-- the row divided by its entry in the column, which becomes exactly `1` -/
def scaleRow (column : Nat) (row : List α) : List α :=
  (row.map (· / row.getD column 0)).set column 1

/-- The row less the multiple of `pivotRow` that clears the column, which becomes exactly `0`.  A
row with a zero there is left alone. -/
def clearRow (pivotRow : List α) (column : Nat) (row : List α) : List α :=
  let factor := row.getD column 0
  if factor == 0 then row
  else (List.zipWith (fun a p => a - factor * p) row pivotRow).set column 0

@[simp] theorem length_scaleRow (column : Nat) (row : List α) :
    (scaleRow column row).length = row.length := by simp [scaleRow]

theorem length_clearRow {pivotRow row : List α} (h : pivotRow.length = row.length) (column : Nat) :
    (clearRow pivotRow column row).length = row.length := by
  unfold clearRow
  dsimp only
  split
  · rfl
  · simp [h]

theorem getD_scaleRow {row : List α} {j : Nat} (hj : j < row.length) (column : Nat) :
    (scaleRow column row).getD j 0 =
      if j = column then 1 else row.getD j 0 / row.getD column 0 := by
  unfold scaleRow
  rw [getD_of_lt (by simpa using hj), List.getElem_set, List.getElem_map,
    getD_of_lt hj]
  simp only [eq_comm]

theorem getD_clearRow {pivotRow row : List α} {j : Nat} (hj : j < row.length)
    (hlen : pivotRow.length = row.length) (column : Nat) :
    (clearRow pivotRow column row).getD j 0 =
      if row.getD column 0 == 0 then row.getD j 0
      else if j = column then 0
      else row.getD j 0 - row.getD column 0 * pivotRow.getD j 0 := by
  unfold clearRow
  dsimp only
  split
  · rfl
  · rw [getD_of_lt (by simpa [hlen] using hj), List.getElem_set,
      List.getElem_zipWith, getD_of_lt hj,
      getD_of_lt (show j < pivotRow.length by omega)]
    simp only [eq_comm]

namespace Tableau

omit [Scalar α] in
theorem length_getElem_rows (t : Tableau α) {i : Nat} (hi : i < t.rows.length) :
    (t.rows[i]).length = t.variableCount + 1 := t.width_eq _ (List.getElem_mem hi)

theorem cell_eq_getD (t : Tableau α) {i : Nat} (hi : i < t.rows.length) (j : Nat) :
    t.cell i j = (t.rows[i]).getD j 0 := by
  rw [cell, getD_of_lt hi]

/-- the tableau cleared in `column` with the help of its row `row` -/
def clear (t : Tableau α) (row column : Nat) : Tableau α :=
  match h : t.rows[row]? with
  | none => t
  | some r =>
    { t with
      rows := t.rows.mapIdx fun i other =>
        if i = row then scaleRow column r else clearRow (scaleRow column r) column other
      rows_ne_nil := by simpa using t.rows_ne_nil
      width_eq := by
        intro new hnew
        obtain ⟨i, hi, rfl⟩ := List.mem_mapIdx.1 hnew
        have hr : r.length = t.variableCount + 1 := t.width_eq r (List.mem_of_getElem? h)
        have hother := t.length_getElem_rows hi
        split
        · rw [length_scaleRow, hr]
        · rw [length_clearRow (by rw [length_scaleRow, hr, hother]), hother] }

@[simp] theorem sense_clear (t : Tableau α) (row column : Nat) :
    (t.clear row column).sense = t.sense := by
  unfold clear; split <;> rfl

@[simp] theorem variableCount_clear (t : Tableau α) (row column : Nat) :
    (t.clear row column).variableCount = t.variableCount := by
  unfold clear; split <;> rfl

@[simp] theorem length_rows_clear (t : Tableau α) (row column : Nat) :
    (t.clear row column).rows.length = t.rows.length := by
  unfold clear; split <;> simp

@[simp] theorem constraintCount_clear (t : Tableau α) (row column : Nat) :
    (t.clear row column).constraintCount = t.constraintCount := by
  simp [constraintCount]

theorem rows_clear {t : Tableau α} {row : Nat} (h : row < t.rows.length) (column : Nat) :
    (t.clear row column).rows = t.rows.mapIdx fun i other =>
      if i = row then scaleRow column t.rows[row]
      else clearRow (scaleRow column t.rows[row]) column other := by
  unfold clear
  split
  · next hnone => rw [List.getElem?_eq_getElem h] at hnone; exact absurd hnone (by simp)
  · next r hr =>
    rw [List.getElem?_eq_getElem h] at hr
    cases hr
    rfl

/-! ### entries -/

theorem cell_clear_self {t : Tableau α} {row column j : Nat} (hr : row ≤ t.constraintCount)
    (hj : j ≤ t.variableCount) :
    (t.clear row column).cell row j =
      if j = column then 1 else t.cell row j / t.cell row column := by
  have hr : row < t.rows.length := by rw [length_rows]; omega
  have hj : j < (t.rows[row]).length := by rw [length_getElem_rows]; omega
  rw [cell_eq_getD _ (by simpa using hr)]
  simp only [rows_clear hr, List.getElem_mapIdx, if_true]
  rw [getD_scaleRow hj, cell_eq_getD t hr, cell_eq_getD t hr]

theorem cell_clear_of_ne {t : Tableau α} {row column i j : Nat} (hr : row ≤ t.constraintCount)
    (hi : i ≤ t.constraintCount) (hne : i ≠ row) (hj : j ≤ t.variableCount) :
    (t.clear row column).cell i j =
      if t.cell i column == 0 then t.cell i j
      else if j = column then 0
      else t.cell i j - t.cell i column * (t.cell row j / t.cell row column) := by
  have hr : row < t.rows.length := by rw [length_rows]; omega
  have hi : i < t.rows.length := by rw [length_rows]; omega
  have hjr : j < (t.rows[row]).length := by rw [length_getElem_rows]; omega
  have hji : j < (t.rows[i]).length := by rw [length_getElem_rows]; omega
  rw [cell_eq_getD _ (by simpa using hi)]
  simp only [rows_clear hr, List.getElem_mapIdx, if_neg hne]
  rw [getD_clearRow hji (by rw [length_scaleRow, length_getElem_rows, length_getElem_rows]),
    getD_scaleRow hjr]
  simp only [cell_eq_getD t hr, cell_eq_getD t hi]
  by_cases h : j = column <;> simp [h]

end Tableau

namespace BasicTableau

def pivot (t : BasicTableau α) (row column : Nat) : BasicTableau α where
  toTableau := t.toTableau.clear row column
  basis := t.basis.set row column

/-- The indices that a pivot touches exist. -/
def CanPivot (t : BasicTableau α) (row column : Nat) : Prop :=
  row < t.basis.length ∧ row ≤ t.constraintCount ∧ column ≤ t.variableCount

instance (t : BasicTableau α) (row column : Nat) : Decidable (t.CanPivot row column) :=
  inferInstanceAs (Decidable (_ ∧ _ ∧ _))

def pivot? (t : BasicTableau α) (row column : Nat) : Option (BasicTableau α) :=
  if t.CanPivot row column then some (t.pivot row column) else none

@[simp] theorem basis_pivot (t : BasicTableau α) (row column : Nat) :
    (t.pivot row column).basis = t.basis.set row column := rfl

@[simp] theorem sense_pivot (t : BasicTableau α) (row column : Nat) :
    (t.pivot row column).sense = t.sense := Tableau.sense_clear _ _ _

@[simp] theorem variableCount_pivot (t : BasicTableau α) (row column : Nat) :
    (t.pivot row column).variableCount = t.variableCount := Tableau.variableCount_clear _ _ _

@[simp] theorem constraintCount_pivot (t : BasicTableau α) (row column : Nat) :
    (t.pivot row column).constraintCount = t.constraintCount := Tableau.constraintCount_clear _ _ _

end BasicTableau

end LinearProgram
