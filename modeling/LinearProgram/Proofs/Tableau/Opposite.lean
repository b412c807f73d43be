import Mathlib.Data.List.Forall2
import LinearProgram.Proofs.Double.Zeros
import LinearProgram.Proofs.Tableau.Candidates
import LinearProgram.Proofs.Tableau.Entries
import LinearProgram.Solution

/-!
# Tableaux but for the signs of zeros

Two tableaux of doubles that agree but for the signs of zeros among the reduced costs: no search
tells them apart, and the same pivot makes of them two such tableaux again.

* `Tableau.Alike`           equal rows, alike reduced costs, one value;
* `Alike.selectPivot_eq`    one pivot is selected in both;
* `Alike.clear`             and it leaves them alike;
* `Opposed.solution_eq`     of opposite senses, they have the same values and opposite objectives.
-/

namespace LinearProgram

/-! ### candidates with alike values -/

section
variable {zs zs' : List Float}

/-- candidates under one number whose values are alike -/
def AlikeCandidates (a b : Float × Nat) : Prop := Double.Alike a.1 b.1 ∧ a.2 = b.2

theorem alikeCandidates_zipIdx (h : List.Forall₂ Double.Alike zs zs') (k : Nat) :
    List.Forall₂ AlikeCandidates (zs.zipIdx k) (zs'.zipIdx k) := by
  induction h generalizing k with
  | nil => exact .nil
  | cons hz _ ih => exact .cons ⟨hz, rfl⟩ (ih (k + 1))

/-- the first of the least is found under the same number -/
theorem firstLeast_eq {cs ds : List (Float × Nat)} (h : List.Forall₂ AlikeCandidates cs ds) :
    firstLeast cs = firstLeast ds := by
  cases h with
  | nil => rfl
  | cons hfirst hrest =>
    refine congrArg some (And.right (List.rel_foldl (P := AlikeCandidates) ?_ hfirst hrest))
    intro best best' hbest c c' hc
    dsimp only
    by_cases hlt : c.1 < best.1
    · rw [if_pos hlt, if_pos ((hc.1.lt_iff hbest.1).1 hlt)]
      exact hc
    · rw [if_neg hlt, if_neg fun h => hlt ((hc.1.lt_iff hbest.1).2 h)]
      exact hbest

/-- a choice that does not see the sign of a zero, made along a row -/
theorem filterMap_zip_eq {β : Type} {f : (Float × Float) × Nat → Option β}
    (hf : ∀ z z', Double.Alike z z' → ∀ a j, f ((z, a), j) = f ((z', a), j))
    (h : List.Forall₂ Double.Alike zs zs') (row : List Float) (k : Nat) :
    ((zs.zip row).zipIdx k).filterMap f = ((zs'.zip row).zipIdx k).filterMap f := by
  induction h generalizing row k with
  | nil => rfl
  | @cons z z' zs zs' hz _ ih =>
    cases row with
    | nil => rfl
    | cons a row =>
      simp only [List.zip_cons_cons, List.zipIdx_cons, List.filterMap_cons, hf z z' hz, ih row]

end

/-! ### objective rows -/

/-- alike objective rows: alike costs, then one value -/
structure AlikeCosts (m : Nat) (z z' : List Float) : Prop where
  length_left : z.length = m + 1
  length_right : z'.length = m + 1
  cost : ∀ j < m, Double.Alike (z.getD j 0) (z'.getD j 0)
  value : z.getD m 0 = z'.getD m 0

theorem AlikeCosts.factor {m : Nat} {z z' : List Float} (h : AlikeCosts m z z') (column : Nat) :
    Double.Alike (z.getD column 0) (z'.getD column 0) := by
  rcases Nat.lt_trichotomy column m with hlt | rfl | hlt
  · exact h.cost column hlt
  · exact Or.inl h.value
  · have hz : z.length ≤ column := by have := h.length_left; omega
    have hz' : z'.length ≤ column := by have := h.length_right; omega
    rw [List.getD_eq_default _ _ hz, List.getD_eq_default _ _ hz']
    exact Double.Alike.refl 0

theorem AlikeCosts.priceOut {m : Nat} {z z' row : List Float} (h : AlikeCosts m z z')
    (hrow : row.length = m + 1) (column : Nat) :
    AlikeCosts m (priceOut z row column) (priceOut z' row column) := by
  have hz : row.length = z.length := hrow.trans h.length_left.symm
  have hz' : row.length = z'.length := hrow.trans h.length_right.symm
  have hfactor := h.factor column
  refine ⟨(length_priceOut hz column).trans h.length_left,
    (length_priceOut hz' column).trans h.length_right, fun j hj => ?_, ?_⟩
  · rw [getD_priceOut hz column (by omega), getD_priceOut hz' column (by omega)]
    exact (h.cost j hj).sub_multiple hfactor _
  · rw [getD_priceOut hz column (by omega), getD_priceOut hz' column (by omega), h.value]
    exact Double.sub_multiple_eq hfactor _ _

theorem AlikeCosts.priceOutAll {m : Nat} {z z' : List Float} (h : AlikeCosts m z z')
    {rows : List (List Float)} (hrows : ∀ row ∈ rows, row.length = m + 1) (basis : List Nat) :
    AlikeCosts m (priceOutAll z rows basis) (priceOutAll z' rows basis) := by
  unfold LinearProgram.priceOutAll
  induction rows generalizing z z' basis with
  | nil => exact h
  | cons row rows ih =>
    cases basis with
    | nil => exact h
    | cons column basis =>
      rw [List.zip_cons_cons, List.foldl_cons, List.foldl_cons]
      exact ih (h.priceOut (hrows row List.mem_cons_self) column)
        (fun r hr => hrows r (List.mem_cons_of_mem _ hr)) basis

/-! ### tableaux -/

namespace Tableau

/-- the value is in the column of the right side, where a pivot clears nothing -/
theorem value_clear {α : Type} [Scalar α] {t : Tableau α} {row column : Nat}
    (hr : row < t.constraintCount) (hc : column < t.variableCount) :
    (t.clear row column).value =
      if t.cell t.constraintCount column == 0 then t.value
      else t.value - t.cell t.constraintCount column * (t.rhs row / t.cell row column) := by
  have hcell : (t.clear row column).cell t.constraintCount t.variableCount = _ :=
    cell_clear_of_ne (Nat.le_of_lt hr) (Nat.le_refl _) (Nat.ne_of_gt hr) (Nat.le_refl _)
  rw [if_neg (Nat.ne_of_gt hc)] at hcell
  rw [value, rhs, rhsColumn, constraintCount_clear, variableCount_clear]
  exact hcell

/-- tableaux of one shape that agree but for the signs of zeros among the reduced costs -/
structure Alike (t u : Tableau Float) : Prop where
  constraintCount_eq : t.constraintCount = u.constraintCount
  variableCount_eq : t.variableCount = u.variableCount
  row : ∀ i < t.constraintCount, ∀ j ≤ t.variableCount, t.cell i j = u.cell i j
  cost : ∀ j < t.variableCount,
    Double.Alike (t.cell t.constraintCount j) (u.cell u.constraintCount j)
  value : t.value = u.value

namespace Alike
variable {t u : Tableau Float} (h : t.Alike u) (tolerance : Float)
include h

theorem getElem_rows {i : Nat} (hi : i < t.constraintCount) (ht : i < t.rows.length)
    (hu : i < u.rows.length) : t.rows[i] = u.rows[i] := by
  refine List.ext_getElem ?_ fun j hjt hju => ?_
  · rw [length_getElem_rows, length_getElem_rows, h.variableCount_eq]
  · have hj : j ≤ t.variableCount := by rw [length_getElem_rows] at hjt; omega
    have hcell := h.row i hi j hj
    rwa [cell_eq_getD t ht, cell_eq_getD u hu, getD_of_lt hjt, getD_of_lt hju] at hcell

theorem constraintRows_eq : t.constraintRows = u.constraintRows := by
  refine List.ext_getElem ?_ fun i hit hiu => ?_
  · rw [length_constraintRows, length_constraintRows, h.constraintCount_eq]
  · rw [length_constraintRows] at hit
    simp only [constraintRows, List.getElem_take]
    exact h.getElem_rows hit _ _

theorem costs : List.Forall₂ Double.Alike t.costs u.costs := by
  refine List.forall₂_of_length_eq_of_get ?_ fun j hjt hju => ?_
  · rw [length_costs, length_costs, h.variableCount_eq]
  · have hj : j < t.variableCount := by rwa [length_costs] at hjt
    have ht := (getElem?_costs.1 (List.getElem?_eq_getElem hjt)).2
    have hu := (getElem?_costs.1 (List.getElem?_eq_getElem hju)).2
    rw [List.get_eq_getElem, List.get_eq_getElem, ← ht, ← hu]
    exact h.cost j hj

theorem rhs_eq (i : Nat) : t.rhs i = u.rhs i := by
  rcases Nat.lt_trichotomy i t.constraintCount with hi | rfl | hi
  · rw [rhs, rhs, rhsColumn, rhsColumn, ← h.variableCount_eq]
    exact h.row i hi _ (Nat.le_refl _)
  · have hvalue : t.rhs t.constraintCount = u.rhs u.constraintCount := h.value
    rwa [← h.constraintCount_eq] at hvalue
  · -- below the objective row there is nothing
    have hnone (v : Tableau Float) (hv : v.constraintCount < i) : v.rhs i = 0 := by
      have hi : v.rows.length ≤ i := by rw [length_rows]; omega
      rw [rhs, cell, List.getD_eq_getElem?_getD (l := v.rows), List.getElem?_eq_none hi]
      rfl
    rw [hnone t hi, hnone u (h.constraintCount_eq ▸ hi)]

/-! ### searches -/

theorem isOptimal_eq : t.isOptimal tolerance = u.isOptimal tolerance := by
  rw [Bool.eq_iff_iff, isOptimal_iff, isOptimal_iff, ← h.variableCount_eq]
  refine forall_congr' fun j => forall_congr' fun hj => ?_
  exact (Double.Alike.refl _).le_iff (h.cost j hj)

theorem isFeasible_eq : t.isFeasible tolerance = u.isFeasible tolerance := by
  rw [Bool.eq_iff_iff, isFeasible_iff, isFeasible_iff, ← h.constraintCount_eq]
  simp only [h.rhs_eq]

theorem enteringColumn_eq : t.enteringColumn tolerance = u.enteringColumn tolerance := by
  refine firstLeast_eq (List.rel_filter ?_ (alikeCandidates_zipIdx h.costs 0))
  intro c c' hc
  show decide (c.1 < -tolerance) = true ↔ decide (c'.1 < -tolerance) = true
  rw [decide_eq_true_iff, decide_eq_true_iff]
  exact hc.1.lt_iff (Double.Alike.refl _)

theorem leavingRow_eq (column : Nat) :
    t.leavingRow column tolerance = u.leavingRow column tolerance := by
  unfold leavingRow leavingCandidates rhsColumn
  rw [h.constraintRows_eq, h.variableCount_eq]

theorem dualLeavingRow_eq : t.dualLeavingRow tolerance = u.dualLeavingRow tolerance := by
  simp only [dualLeavingRow, dualLeavingCandidates, rhsByRow, rhsColumn, h.constraintRows_eq,
    h.variableCount_eq]

theorem dualEnteringColumn_eq {row : Nat} (hrow : row < t.constraintCount) :
    t.dualEnteringColumn row tolerance = u.dualEnteringColumn row tolerance := by
  have ht : row < t.rows.length := by rw [length_rows]; omega
  have hu : row < u.rows.length := by rw [length_rows, ← h.constraintCount_eq]; omega
  rw [dualEnteringColumn, dualEnteringColumn, dualEnteringCandidates, dualEnteringCandidates,
    getD_of_lt ht, getD_of_lt hu, h.getElem_rows hrow ht hu]
  refine congrArg firstLeast (filterMap_zip_eq (fun z z' hz a j => ?_) h.costs _ 0)
  -- the ratio is an absolute value, so that the sign of a zero cost is lost
  have habs : Scalar.abs (z / a) = Scalar.abs (z' / a) := hz.abs_div a
  simp only [habs]

theorem method_isOptimal_eq (m : Method) :
    m.isOptimal tolerance t = m.isOptimal tolerance u := by
  cases m with
  | primal => exact h.isOptimal_eq tolerance
  | dual => exact h.isFeasible_eq tolerance

theorem selectPivot_eq (m : Method) :
    m.selectPivot tolerance t = m.selectPivot tolerance u := by
  cases m with
  | primal => simp only [Method.selectPivot, h.enteringColumn_eq, h.leavingRow_eq]
  | dual =>
    simp only [Method.selectPivot, ← h.dualLeavingRow_eq]
    cases hrow : t.dualLeavingRow tolerance with
    | none => rfl
    | some row => simp only [h.dualEnteringColumn_eq tolerance (dualLeavingRow_lt hrow)]

/-! ### a pivot -/

theorem clear {row column : Nat} (hr : row < t.constraintCount) (hc : column < t.variableCount) :
    (t.clear row column).Alike (u.clear row column) := by
  have hn := h.constraintCount_eq
  have hm := h.variableCount_eq
  have hratio (j : Nat) (hj : j ≤ t.variableCount) :
      t.cell row j / t.cell row column = u.cell row j / u.cell row column := by
    rw [h.row row hr j hj, h.row row hr column (by omega)]
  have hcost := h.cost column hc
  refine ⟨by simpa using hn, by simpa using hm, fun i hi j hj => ?_, fun j hj => ?_, ?_⟩
  · rw [constraintCount_clear] at hi
    rw [variableCount_clear] at hj
    by_cases hrow : i = row
    · subst hrow
      rw [cell_clear_self (by omega) hj, cell_clear_self (by omega) (by omega), hratio j hj]
    · rw [cell_clear_of_ne (by omega) (by omega) hrow hj,
        cell_clear_of_ne (by omega) (by omega) hrow (by omega), hratio j hj, h.row i hi j hj,
        h.row i hi column (by omega)]
  · rw [variableCount_clear] at hj
    rw [constraintCount_clear, constraintCount_clear,
      cell_clear_of_ne (by omega) (by omega) (by omega) (by omega),
      cell_clear_of_ne (by omega) (by omega) (by omega) (by omega), hratio j (by omega)]
    by_cases hjc : j = column
    · subst hjc
      by_cases hzero : t.cell t.constraintCount j == 0
      · rw [if_pos hzero, if_pos (hcost.beq_zero_iff.1 hzero)]
        exact hcost
      · rw [if_neg hzero, if_neg fun hz => hzero (hcost.beq_zero_iff.2 hz), if_pos rfl, if_pos rfl]
        exact Double.Alike.refl 0
    · rw [if_neg hjc, if_neg hjc]
      exact (h.cost j hj).sub_multiple hcost _
  · rw [value_clear hr hc, value_clear (by omega) (by omega), h.value, h.rhs_eq,
      h.row row hr column (by omega)]
    exact Double.sub_multiple_eq hcost _ _

end Alike

end Tableau

/-- the same values with the objective negated -/
def Solution.opposite {α : Type} [Neg α] (s : Solution α) : Solution α :=
  ⟨s.values, -s.objectiveValue⟩

namespace BasicTableau

/-- alike tableaux of a maximisation and a minimisation, with one basis -/
structure Opposed (t u : BasicTableau Float) : Prop extends t.toTableau.Alike u.toTableau where
  basis_eq : t.basis = u.basis
  maximize : t.sense = .maximize
  minimize : u.sense = .minimize

namespace Opposed
variable {t u : BasicTableau Float} (h : t.Opposed u)
include h

theorem pivot {row column : Nat} (hr : row < t.constraintCount) (hc : column < t.variableCount) :
    (t.pivot row column).Opposed (u.pivot row column) :=
  ⟨h.toAlike.clear hr hc, by rw [basis_pivot, basis_pivot, h.basis_eq],
    (sense_pivot t row column).trans h.maximize, (sense_pivot u row column).trans h.minimize⟩

theorem basicValues_eq : t.basicValues = u.basicValues := by
  simp only [basicValues, h.basis_eq, h.variableCount_eq, h.rhs_eq]

theorem objectiveValue_eq : u.objectiveValue = -t.objectiveValue := by
  rw [Tableau.objectiveValue, Tableau.objectiveValue, h.maximize, h.minimize, h.value]

theorem solution_eq : u.solution = t.solution.opposite := by
  show Solution.mk u.basicValues u.objectiveValue = ⟨t.basicValues, -t.objectiveValue⟩
  rw [h.basicValues_eq, h.objectiveValue_eq]

end Opposed

end BasicTableau

end LinearProgram
