import LinearProgram.Proofs.Problem.Dot
import LinearProgram.Proofs.Tableau.Entries

/-!
# The equations of a tableau

Over the rationals each constraint row of a tableau is an equation and its objective row a formula
for the objective.  A pivot and pricing out add multiples of rows to rows, so they change neither
the solutions of the equations nor the objective at them.

* `Tableau.Satisfies`, `Tableau.objectiveAt`   what a tableau says of a point;
* `satisfies_pivot`, `objectiveAt_pivot`       a pivot says the same;
* `satisfies_pricedOut`, `objectiveAt_pricedOut`   the initial tableau says what the problem says.
-/

namespace LinearProgram

/-- the left side of a row at a point less its right side -/
def residual (row x : List Rat) : Rat := dot row x - row.getD x.length 0

/-! ### rows over the rationals -/

theorem getD_map_div (row : List Rat) (d : Rat) (j : Nat) :
    (row.map (· / d)).getD j 0 = row.getD j 0 / d := by
  have hmap : (row.map (· / d)).getD j (0 / d) = row.getD j 0 / d := List.getD_map row 0 (· / d)
  rwa [zero_div] at hmap

theorem getD_zipWith_sub {z row : List Rat} (h : z.length = row.length) (f : Rat) (j : Nat) :
    (List.zipWith (fun a p => a - f * p) z row).getD j 0 = z.getD j 0 - f * row.getD j 0 := by
  by_cases hj : j < z.length
  · rw [getD_of_lt (by rw [List.length_zipWith]; omega), List.getElem_zipWith, getD_of_lt hj,
      getD_of_lt (h ▸ hj)]
  · rw [List.getD_eq_default _ _ (by rw [List.length_zipWith]; omega),
      List.getD_eq_default _ _ (by omega), List.getD_eq_default _ _ (by omega), mul_zero, sub_zero]

theorem ext_getD {a b : List Rat} (hlen : a.length = b.length)
    (h : ∀ j < b.length, a.getD j 0 = b.getD j 0) : a = b := by
  apply List.ext_getElem hlen
  intro j hj hj'
  have hget := h j hj'
  rwa [getD_of_lt hj, getD_of_lt hj'] at hget

theorem scaleRow_eq {column : Nat} {row : List Rat} (h : row.getD column 0 ≠ 0) :
    scaleRow column row = row.map (· / row.getD column 0) := by
  refine ext_getD (by rw [length_scaleRow, List.length_map]) fun j hj => ?_
  rw [getD_scaleRow (by rwa [List.length_map] at hj), getD_map_div]
  by_cases hjc : j = column
  · rw [if_pos hjc, hjc, div_self h]
  · rw [if_neg hjc]

theorem clearRow_eq {column : Nat} {row pivotRow : List Rat} (hlen : pivotRow.length = row.length)
    (h : pivotRow.getD column 0 = 1) :
    clearRow pivotRow column row =
      List.zipWith (fun a p => a - row.getD column 0 * p) row pivotRow := by
  refine ext_getD (by rw [length_clearRow hlen, List.length_zipWith]; omega) fun j hj => ?_
  rw [getD_clearRow (by rw [List.length_zipWith] at hj; omega) hlen, getD_zipWith_sub hlen.symm]
  by_cases hzero : row.getD column 0 == 0
  · rw [if_pos hzero, beq_iff_eq.1 hzero, zero_mul, sub_zero]
  · rw [if_neg hzero]
    by_cases hjc : j = column
    · rw [if_pos hjc, hjc, h, mul_one, sub_self]
    · rw [if_neg hjc]

theorem priceOut_eq {costs row : List Rat} (h : costs.length = row.length) (column : Nat) :
    priceOut costs row column =
      List.zipWith (fun z a => z - costs.getD column 0 * a) costs row := by
  refine ext_getD (by rw [length_priceOut h.symm, List.length_zipWith]; omega) fun j hj => ?_
  rw [getD_priceOut h.symm _ (by rw [List.length_zipWith] at hj; omega), getD_zipWith_sub h]
  by_cases hzero : costs.getD column 0 == 0
  · rw [if_pos hzero, beq_iff_eq.1 hzero, zero_mul, sub_zero]
  · rw [if_neg hzero]

/-! ### residuals -/

theorem residual_map_div (row x : List Rat) (d : Rat) :
    residual (row.map (· / d)) x = residual row x / d := by
  rw [residual, residual, dot_map_div, getD_map_div, sub_div]

theorem residual_zipWith_sub {z row : List Rat} (h : z.length = row.length) (f : Rat)
    (x : List Rat) :
    residual (List.zipWith (fun a p => a - f * p) z row) x =
      residual z x - f * residual row x := by
  rw [residual, residual, residual, dot_zipWith_sub h, getD_zipWith_sub h]
  ring

/-! ### what a tableau says -/

namespace Tableau

variable (t : Tableau Rat)

/-- the entries of a row before the right side -/
def coefficients (row : Nat) : List Rat := (t.rows.getD row []).take t.variableCount

structure Satisfies (x : List Rat) : Prop where
  length_eq : x.length = t.variableCount
  holds : ∀ row < t.constraintCount, dot (t.coefficients row) x = t.rhs row

/-- the objective that the last row gives to a point, in the sense of the problem -/
def objectiveAt (x : List Rat) : Rat :=
  match t.sense with
  | .maximize => t.value - dot t.costs x
  | .minimize => -(t.value - dot t.costs x)

variable {t}

theorem residual_row {x : List Rat} (hx : x.length = t.variableCount) (row : Nat) :
    residual (t.rows.getD row []) x = dot (t.coefficients row) x - t.rhs row := by
  rw [residual, coefficients, ← hx, dot_take, rhs, rhsColumn, cell, hx]

theorem satisfies_iff_residual {x : List Rat} : t.Satisfies x ↔
    x.length = t.variableCount ∧
      ∀ row < t.constraintCount, residual (t.rows.getD row []) x = 0 := by
  refine ⟨?_, ?_⟩
  · intro h
    refine ⟨h.length_eq, fun row hrow => ?_⟩
    rw [residual_row h.length_eq, h.holds row hrow, sub_self]
  · intro h
    obtain ⟨hx, h⟩ := h
    refine ⟨hx, fun row hrow => ?_⟩
    have hzero := h row hrow
    rw [residual_row hx] at hzero
    exact sub_eq_zero.1 hzero

theorem objectiveAt_eq_residual {x : List Rat} (hx : x.length = t.variableCount) :
    t.objectiveAt x = match t.sense with
      | .maximize => -residual t.objectiveRow x
      | .minimize => residual t.objectiveRow x := by
  have hres : residual t.objectiveRow x = dot t.costs x - t.value :=
    residual_row hx t.constraintCount
  rw [objectiveAt, hres]
  cases t.sense with
  | maximize => show _ - _ = -(_ - _); ring
  | minimize => show -(_ - _) = _ - _; ring

end Tableau

/-! ### a pivot -/

namespace BasicTableau

variable {t : BasicTableau Rat} {row column : Nat}

theorem residual_pivot (hr : row < t.constraintCount) (hpivot : t.cell row column ≠ 0) {i : Nat}
    (hi : i ≤ t.constraintCount) (x : List Rat) :
    residual ((t.pivot row column).rows.getD i []) x =
      if i = row then residual (t.rows.getD row []) x / t.cell row column
      else residual (t.rows.getD i []) x -
        t.cell i column * (residual (t.rows.getD row []) x / t.cell row column) := by
  have hr : row < t.rows.length := by rw [Tableau.length_rows]; omega
  have hi : i < t.rows.length := by rw [Tableau.length_rows]; omega
  have hlen := (t.length_getElem_rows hr).trans (t.length_getElem_rows hi).symm
  rw [Tableau.cell_eq_getD _ hr] at hpivot
  have hone : (t.rows[row].map (· / t.rows[row].getD column 0)).getD column 0 = 1 := by
    rw [getD_map_div, div_self hpivot]
  have hi' : i < (t.pivot row column).rows.length := by
    show i < (t.toTableau.clear row column).rows.length
    rwa [Tableau.length_rows_clear]
  have hrows : (t.pivot row column).rows[i] = if i = row then scaleRow column t.rows[row]
      else clearRow (scaleRow column t.rows[row]) column t.rows[i] := by
    show (t.toTableau.clear row column).rows[i] = _
    simp only [Tableau.rows_clear hr, List.getElem_mapIdx]
  rw [getD_of_lt hi', hrows, Tableau.cell_eq_getD _ hr, Tableau.cell_eq_getD _ hi, getD_of_lt hr,
    getD_of_lt hi, scaleRow_eq hpivot]
  by_cases hir : i = row
  · rw [if_pos hir, if_pos hir, residual_map_div]
  · rw [if_neg hir, if_neg hir, clearRow_eq (by rw [List.length_map]; exact hlen) hone,
      residual_zipWith_sub (by rw [List.length_map]; exact hlen.symm), residual_map_div]

theorem satisfies_pivot (hr : row < t.constraintCount) (hpivot : t.cell row column ≠ 0)
    (x : List Rat) : (t.pivot row column).Satisfies x ↔ t.Satisfies x := by
  rw [Tableau.satisfies_iff_residual, Tableau.satisfies_iff_residual, variableCount_pivot,
    constraintCount_pivot]
  apply and_congr_right
  intro _
  refine ⟨?_, ?_⟩
  · intro h
    have hrow : residual (t.rows.getD row []) x = 0 := by
      have hquot := h row hr
      rw [residual_pivot hr hpivot hr.le, if_pos rfl] at hquot
      exact (div_eq_zero_iff.1 hquot).resolve_right hpivot
    intro i hi
    by_cases hir : i = row
    · rw [hir]
      exact hrow
    · have hdiff := h i hi
      rwa [residual_pivot hr hpivot hi.le, if_neg hir, hrow, zero_div, mul_zero, sub_zero] at hdiff
  · intro h i hi
    rw [residual_pivot hr hpivot hi.le, h row hr, h i hi]
    by_cases hir : i = row
    · rw [if_pos hir, zero_div]
    · rw [if_neg hir, zero_div, mul_zero, sub_zero]

theorem objectiveAt_pivot (hr : row < t.constraintCount) (hpivot : t.cell row column ≠ 0)
    {x : List Rat} (hx : t.Satisfies x) : (t.pivot row column).objectiveAt x = t.objectiveAt x := by
  have hrow := (Tableau.satisfies_iff_residual.1 hx).2 row hr
  have hobjective : residual (t.pivot row column).objectiveRow x = residual t.objectiveRow x := by
    rw [Tableau.objectiveRow, constraintCount_pivot, residual_pivot hr hpivot le_rfl,
      if_neg (by omega), hrow, zero_div, mul_zero, sub_zero]
    rfl
  rw [Tableau.objectiveAt_eq_residual (by rw [variableCount_pivot]; exact hx.length_eq),
    Tableau.objectiveAt_eq_residual hx.length_eq, hobjective, sense_pivot]

end BasicTableau

/-! ### pricing out -/

theorem residual_foldl_priceOut {l : List (List Rat × Nat)} {costs x : List Rat}
    (hlen : ∀ a ∈ l, a.1.length = costs.length) (hx : ∀ a ∈ l, residual a.1 x = 0) :
    residual (l.foldl (fun z a => priceOut z a.1 a.2) costs) x = residual costs x := by
  induction l generalizing costs with
  | nil => rfl
  | cons a l ih =>
    have hfirst := hlen a List.mem_cons_self
    rw [List.foldl_cons, ih ?_ fun b hb => hx b (List.mem_cons_of_mem _ hb),
      priceOut_eq hfirst.symm, residual_zipWith_sub hfirst.symm, hx a List.mem_cons_self,
      mul_zero, sub_zero]
    intro b hb
    rw [length_priceOut hfirst, hlen b (List.mem_cons_of_mem _ hb)]

namespace Problem

variable {p : Problem Rat}

theorem residual_constraint {c : Constraint Rat} {x : List Rat}
    (hx : x.length = c.coefficients.length) :
    residual (c.coefficients ++ [c.rhs]) x = dot c.coefficients x - c.rhs := by
  have hdot : dot (c.coefficients ++ [c.rhs]) x = dot c.coefficients x := by
    have happend := dot_append (b := [c.rhs]) (y := []) hx.symm
    rwa [List.append_nil, dot_nil_right, add_zero] at happend
  rw [residual, hdot, hx, List.getD_append_right _ _ _ _ le_rfl, Nat.sub_self]
  rfl

theorem satisfies_iff_residual (heq : ∀ c ∈ p.constraints, c.relation = .equal) {x : List Rat} :
    p.Satisfies x ↔ x.length = p.variableCount ∧ ∀ row ∈ p.tableauRows, residual row x = 0 := by
  have hrow : x.length = p.variableCount → ∀ c ∈ p.constraints,
      (c.Holds x ↔ residual (c.coefficients ++ [c.rhs]) x = 0) := by
    intro hx c hc
    rw [residual_constraint (hx.trans (p.width_eq c hc).symm), sub_eq_zero, Constraint.Holds,
      heq c hc]
    exact Iff.rfl
  refine ⟨?_, ?_⟩
  · intro h
    refine ⟨h.length_eq, fun row hmem => ?_⟩
    obtain ⟨c, hc, rfl⟩ := List.mem_map.1 hmem
    exact (hrow h.length_eq c hc).1 (h.holds c hc)
  · intro h
    obtain ⟨hx, h⟩ := h
    exact ⟨hx, fun c hc => (hrow hx c hc).2 (h _ (List.mem_map_of_mem hc))⟩

theorem satisfies_pricedOut (heq : ∀ c ∈ p.constraints, c.relation = .equal) (basis : List Nat)
    (x : List Rat) : (p.pricedOut basis).Satisfies x ↔ p.Satisfies x := by
  rw [Tableau.satisfies_iff_residual, satisfies_iff_residual heq, variableCount_pricedOut,
    constraintCount_pricedOut]
  apply and_congr_right
  intro _
  refine ⟨?_, ?_⟩
  · intro h row hmem
    obtain ⟨i, hi, rfl⟩ := List.getElem_of_mem hmem
    have hi' : i < p.constraintCount := by rwa [length_tableauRows] at hi
    have hzero := h i hi'
    rwa [rows_pricedOut basis hi', getD_of_lt hi] at hzero
  · intro h i hi
    have hi' : i < p.tableauRows.length := by rwa [length_tableauRows]
    rw [rows_pricedOut basis hi, getD_of_lt hi']
    exact h _ (List.getElem_mem hi')

theorem residual_rawCosts {x : List Rat} (hx : x.length = p.variableCount) :
    residual p.rawCosts x = match p.sense with
      | .maximize => -p.objectiveAt x
      | .minimize => p.objectiveAt x := by
  have hrow : ∀ c : List Rat, c.length = x.length → residual (c ++ [0]) x = dot c x := by
    intro c hc
    have hres := residual_constraint (c := ⟨c, .equal, 0⟩) hc.symm
    rwa [sub_zero] at hres
  unfold rawCosts
  cases p.sense with
  | maximize =>
    show residual (p.objective.map (-·) ++ [0]) x = -dot p.objective x
    rw [hrow _ (by rw [List.length_map]; exact hx.symm), dot_map_neg]
  | minimize => exact hrow _ hx.symm

theorem objectiveAt_pricedOut (heq : ∀ c ∈ p.constraints, c.relation = .equal) (basis : List Nat)
    {x : List Rat} (h : p.Satisfies x) :
    (p.pricedOut basis).objectiveAt x = p.objectiveAt x := by
  have hrows := (satisfies_iff_residual heq).1 h
  have hobjective : residual (p.pricedOut basis).objectiveRow x = residual p.rawCosts x := by
    rw [Tableau.objectiveRow, constraintCount_pricedOut, objectiveRow_pricedOut]
    refine residual_foldl_priceOut (fun a ha => ?_) fun a ha => hrows.2 _ (List.of_mem_zip ha).1
    rw [p.length_of_mem_tableauRows (List.of_mem_zip ha).1, length_rawCosts]
  rw [Tableau.objectiveAt_eq_residual hrows.1, hobjective, residual_rawCosts hrows.1]
  show (match p.sense with
    | .maximize => _
    | .minimize => _) = _
  cases p.sense with
  | maximize => exact neg_neg _
  | minimize => rfl

end Problem

end LinearProgram
