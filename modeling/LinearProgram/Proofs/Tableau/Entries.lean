import Mathlib.Data.List.GetD
import LinearProgram.Tableau.Initial
import LinearProgram.UnitColumn

/-!
# Entries of tableaux

Where the entries of an initial tableau come from, and what pricing out and a pivot make of them.
-/

namespace LinearProgram

variable {α : Type} [Scalar α]

/-! ### a pivot -/

namespace BasicTableau

variable {t : BasicTableau α} {row column : Nat}

theorem cell_pivot_self {j : Nat} (hr : row ≤ t.constraintCount) (hj : j ≤ t.variableCount) :
    (t.pivot row column).cell row j =
      if j = column then 1 else t.cell row j / t.cell row column :=
  Tableau.cell_clear_self hr hj

theorem cell_pivot_of_ne {i j : Nat} (hr : row ≤ t.constraintCount) (hi : i ≤ t.constraintCount)
    (hne : i ≠ row) (hj : j ≤ t.variableCount) :
    (t.pivot row column).cell i j =
      if t.cell i column == 0 then t.cell i j
      else if j = column then 0
      else t.cell i j - t.cell i column * (t.cell row j / t.cell row column) :=
  Tableau.cell_clear_of_ne hr hi hne hj

end BasicTableau

/-! ### pricing out -/

theorem getD_priceOut {costs row : List α} (h : row.length = costs.length) (column : Nat) {j : Nat}
    (hj : j < costs.length) :
    (priceOut costs row column).getD j 0 =
      if costs.getD column 0 == 0 then costs.getD j 0
      else costs.getD j 0 - costs.getD column 0 * row.getD j 0 := by
  unfold priceOut
  dsimp only
  by_cases hzero : costs.getD column 0 == 0
  · rw [if_pos hzero, if_pos hzero]
  · rw [if_neg hzero, if_neg hzero, getD_of_lt (by simpa [h] using hj), List.getElem_zipWith,
      getD_of_lt hj, getD_of_lt (show j < row.length by omega)]

/-- a column without a cost has nothing to price out -/
theorem foldl_priceOut_of_zero {l : List (List α × Nat)} {costs : List α}
    (h : ∀ a ∈ l, costs.getD a.2 0 == 0) :
    l.foldl (fun z a => priceOut z a.1 a.2) costs = costs := by
  induction l with
  | nil => rfl
  | cons a l ih =>
    have hfirst : priceOut costs a.1 a.2 = costs := if_pos (h a List.mem_cons_self)
    rw [List.foldl_cons, hfirst]
    exact ih fun b hb => h b (List.mem_cons_of_mem _ hb)

/-! ### the initial tableau -/

namespace Problem

omit [Scalar α] in
theorem length_tableauRows (p : Problem α) : p.tableauRows.length = p.constraintCount :=
  List.length_map _

theorem getD_tableauRows {p : Problem α} {i j : Nat} {a : α}
    (h : (columnOf p.matrix j)[i]? = some (some a)) : (p.tableauRows.getD i []).getD j 0 = a := by
  rw [columnOf, matrix, List.getElem?_map, List.getElem?_map, Option.map_map,
    Option.map_eq_some_iff] at h
  obtain ⟨c, hc, ha⟩ := h
  obtain ⟨hj, ha⟩ := List.getElem?_eq_some_iff.1 ha
  rw [tableauRows, List.getD_eq_getElem?_getD (l := p.constraints.map _), List.getElem?_map, hc]
  show (c.coefficients ++ [c.rhs]).getD j 0 = a
  rw [List.getD_append _ _ _ _ hj, getD_of_lt hj, ha]

theorem getD_rawCosts {p : Problem α} {j : Nat} (hj : j < p.variableCount) :
    p.rawCosts.getD j 0 = match p.sense with
      | .maximize => -p.objective.getD j 0
      | .minimize => p.objective.getD j 0 := by
  have hj : j < p.objective.length := hj
  have hmap : j < (p.objective.map (-·)).length := by rwa [List.length_map]
  rw [rawCosts]
  cases p.sense with
  | maximize =>
    show (p.objective.map (-·) ++ [0]).getD j 0 = -p.objective.getD j 0
    rw [List.getD_append _ _ _ _ hmap, getD_of_lt hmap, List.getElem_map, getD_of_lt hj]
  | minimize =>
    show (p.objective ++ [0]).getD j 0 = p.objective.getD j 0
    rw [List.getD_append _ _ _ _ hj]

theorem rows_pricedOut {p : Problem α} (basis : List Nat) {i : Nat} (hi : i < p.constraintCount) :
    (p.pricedOut basis).rows.getD i [] = p.tableauRows.getD i [] :=
  List.getD_append _ _ _ _ (by rwa [length_tableauRows])

/-- the right sides of the initial tableau are those of the problem -/
theorem exists_rhs_pricedOut {p : Problem α} (basis : List Nat) {i : Nat}
    (hi : i < p.constraintCount) : ∃ c ∈ p.constraints, (p.pricedOut basis).rhs i = c.rhs := by
  have hi : i < p.constraints.length := hi
  have hc := List.getElem_mem hi
  refine ⟨p.constraints[i], hc, ?_⟩
  have hwidth := p.width_eq _ hc
  have hi' : i < p.tableauRows.length := by rwa [length_tableauRows]
  have hrow : p.tableauRows.getD i [] =
      p.constraints[i].coefficients ++ [p.constraints[i].rhs] := by
    rw [getD_of_lt hi']
    exact List.getElem_map _
  show ((p.pricedOut basis).rows.getD i []).getD p.variableCount 0 = _
  rw [rows_pricedOut basis hi, hrow, variableCount, ← hwidth,
    List.getD_append_right _ _ _ _ (Nat.le_refl _), Nat.sub_self]
  rfl

theorem objectiveRow_pricedOut (p : Problem α) (basis : List Nat) :
    (p.pricedOut basis).rows.getD p.constraintCount [] =
      priceOutAll p.rawCosts p.tableauRows basis := by
  have hlen := p.length_tableauRows
  show (p.tableauRows ++ [_]).getD p.constraintCount [] = _
  rw [List.getD_append_right _ _ _ _ (by omega), hlen, Nat.sub_self]
  rfl

end Problem

end LinearProgram
