import LinearProgram.Proofs.Checked.Grid

/-!
# Checked pivots

A pivot on a grid as it is carried out: the pivot row is divided entry by entry, and then every
other row is gone through against it.  On the grid of a tableau all of its indices exist where the
entry of the pivot does.

* `Grid.pivot?_grid`   the pivot of the tableau.
-/

namespace LinearProgram
open Checked

namespace Grid

variable {α : Type} [Scalar α]

def scaleRow? (column : Nat) (row : List α) : Option (List α) := do
  let entry ← row[column]?
  let row ← updateUpTo? (fun _ a => some (a / entry)) row row.length
  put? row column 1

def clearRow? (pivotRow : List α) (column : Nat) (row : List α) : Option (List α) := do
  let factor ← row[column]?
  if factor == 0 then some row
  else
    let row ← updateUpTo? (fun j a => pivotRow[j]?.map fun p => a - factor * p) row pivotRow.length
    put? row column 0

def pivot? (g : Grid α) (row column : Nat) : Option (Grid α) := do
  let basis ← put? g.basis row column
  let old ← g.rows[row]?
  let pivotRow ← scaleRow? column old
  let rows ← put? g.rows row pivotRow
  let rows ← rows.zipIdx.mapM fun (other, i) =>
    if i = row then some other else clearRow? pivotRow column other
  some ⟨rows, g.sense, basis⟩

theorem scaleRow?_eq {column : Nat} {row : List α} (h : column < row.length) :
    scaleRow? column row = some (scaleRow column row) := by
  rw [scaleRow?, List.getElem?_eq_getElem h, scaleRow, getD_of_lt h]
  simp only [Option.bind_eq_bind, Option.bind_some, updateUpTo?_map]
  exact put?_eq (by rwa [List.length_map]) _

theorem clearRow?_eq {pivotRow : List α} {column : Nat} {row : List α} (h : column < row.length)
    (hlen : pivotRow.length = row.length) :
    clearRow? pivotRow column row = some (clearRow pivotRow column row) := by
  rw [clearRow?, List.getElem?_eq_getElem h, clearRow, getD_of_lt h, hlen]
  simp only [Option.bind_eq_bind, Option.bind_some, updateUpTo?_zipWith _ hlen.symm]
  by_cases hzero : row[column] == 0
  · rw [if_pos hzero, if_pos hzero]
  · rw [if_neg hzero, if_neg hzero]
    exact put?_eq (by rw [List.length_zipWith]; omega) _

/-- the rows but the one of the pivot can all be cleared, if they have one width -/
theorem mapM_clearRow? {rows : List (List α)} {pivotRow : List α} {column width : Nat} (row : Nat)
    (hwidth : ∀ other ∈ rows, other.length = width) (hpivot : pivotRow.length = width)
    (hc : column < width) :
    (rows.zipIdx.mapM fun (other, i) =>
      if i = row then some other else clearRow? pivotRow column other) =
      some (rows.zipIdx.map fun (other, i) =>
        if i = row then other else clearRow pivotRow column other) := by
  refine mapM_eq_some fun ⟨other, i⟩ ha => ?_
  have hother := hwidth other (List.fst_mem_of_mem_zipIdx ha)
  dsimp only
  by_cases hi : i = row
  · rw [if_pos hi, if_pos hi]
  · rw [if_neg hi, if_neg hi, clearRow?_eq (by omega) (by rw [hother, hpivot])]

theorem rows_clear_eq {t : Tableau α} {row column : Nat} (hr : row < t.rows.length) :
    (t.clear row column).rows =
      (t.rows.set row (scaleRow column t.rows[row])).zipIdx.map fun (other, i) =>
        if i = row then other else clearRow (scaleRow column t.rows[row]) column other := by
  rw [Tableau.rows_clear hr]
  refine List.ext_getElem (by simp) fun i hi _ => ?_
  by_cases heq : i = row
  · subst heq
    simp
  · simp [heq, List.getElem_set_ne (Ne.symm heq)]

theorem pivot?_grid {t : BasicTableau α} {row column : Nat} (h : t.CanPivot row column) :
    t.grid.pivot? row column = some (t.pivot row column).grid := by
  obtain ⟨hbasis, hrow, hcolumn⟩ := h
  have hr : row < t.rows.length := by rw [t.length_rows]; omega
  have hwidth : t.rows[row].length = t.variableCount + 1 := t.length_getElem_rows hr
  have hscale : scaleRow? column t.rows[row] = some (scaleRow column t.rows[row]) :=
    scaleRow?_eq (by omega)
  have hscaled : (scaleRow column t.rows[row]).length = t.variableCount + 1 := by
    rw [length_scaleRow, hwidth]
  have hset : ∀ other ∈ t.rows.set row (scaleRow column t.rows[row]),
      other.length = t.variableCount + 1 := by
    intro other hother
    rcases List.mem_or_eq_of_mem_set hother with hmem | rfl
    · exact t.width_eq _ hmem
    · exact hscaled
  have hclear := mapM_clearRow? row hset hscaled (Nat.lt_succ_of_le hcolumn)
  rw [pivot?, getElem?_rows t hr]
  show (put? t.basis row column).bind _ = _
  rw [put?_eq hbasis]
  simp only [Option.bind_eq_bind, Option.bind_some, hscale]
  show (put? t.rows row _).bind _ = _
  rw [put?_eq hr, Option.bind_some, hclear, Option.bind_some, ← rows_clear_eq hr]
  rw [BasicTableau.grid.eq_def (t.pivot row column), BasicTableau.sense_pivot]
  rfl

/-- a row that is too short cannot be cleared -/
example : (⟨[[2, 4], [1], [3, 5]], .maximize, [1, 1]⟩ : Grid Rat).pivot? 0 1 = none := by
  decide +kernel

end Grid

end LinearProgram
