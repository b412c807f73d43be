import LinearProgram.Method
import LinearProgram.Proofs.Scalar.ExactUnits
import LinearProgram.Tableau.Pivot

/-!
# Candidates for a pivot

The searches read lists of rows and columns; here their candidates are given by the entries of
the tableau.

* `mem_leavingCandidates`, `mem_dualEnteringCandidates`   the candidates of the ratio tests;
* `leavingRow_eq_none_iff`, `dualEnteringColumn_eq_none_iff`   when they find none;
* `isOptimal_iff_watched`, `selectPivot_eq_none_iff`   the test of a method, and when its search is
                                                     at its end;
* `selectPivot_unbounded_iff`, `selectPivot_infeasible_iff`    the verdicts of the two methods;
* `selectPivot_beyond`      the chosen entry lies beyond the tolerance.
-/

namespace LinearProgram

theorem firstLeast_eq_none_iff {α : Type} [LT α] [DecidableLT α] {cs : List (α × Nat)} :
    firstLeast cs = none ↔ cs = [] := by
  cases cs with
  | nil => exact ⟨fun _ => rfl, fun _ => rfl⟩
  | cons c rest => exact ⟨nofun, nofun⟩

variable {α : Type} [Scalar α]

namespace Tableau

variable {t : Tableau α} {tolerance a : α} {row column i j : Nat}

/-! ### lists of the tableau by entries -/

theorem getElem?_row (hrow : row ≤ t.constraintCount) (hj : j < t.variableCount) :
    (t.rows.getD row [])[j]? = some (t.cell row j) := by
  have hr : row < t.rows.length := by rw [length_rows]; omega
  have hc : j < t.rows[row].length := by rw [length_getElem_rows]; omega
  rw [getD_of_lt hr, List.getElem?_eq_getElem hc, cell_eq_getD t hr, getD_of_lt hc]

theorem getElem?_costs :
    t.costs[j]? = some a ↔ j < t.variableCount ∧ t.cell t.constraintCount j = a := by
  rw [costs, objectiveRow, List.getElem?_take]
  by_cases hj : j < t.variableCount
  · rw [if_pos hj, getElem?_row (Nat.le_refl _) hj, Option.some_inj]
    exact ⟨fun h => ⟨hj, h⟩, fun h => h.2⟩
  · rw [if_neg hj]
    exact ⟨(fun h => by cases h), fun h => absurd h.1 hj⟩

omit [Scalar α] in
theorem getElem?_constraintRows {r : List α} : t.constraintRows[i]? = some r ↔
    i < t.constraintCount ∧ t.rows[i]? = some r := by
  rw [constraintRows, List.getElem?_take]
  by_cases h : i < t.constraintCount
  · rw [if_pos h]
    exact ⟨fun hr => ⟨h, hr⟩, fun hr => hr.2⟩
  · rw [if_neg h]
    exact ⟨(fun hr => by cases hr), fun hr => absurd hr.1 h⟩

theorem cell_of_getElem? {r : List α} (h : t.rows[i]? = some r) (j : Nat) :
    t.cell i j = r.getD j 0 := by
  rw [cell, List.getD_eq_getElem?_getD (l := t.rows), h]
  rfl

theorem mem_rhsByRow : (a, i) ∈ t.rhsByRow ↔ i < t.constraintCount ∧ t.rhs i = a := by
  rw [rhsByRow, List.mem_zipIdx_iff_getElem?, List.getElem?_map, Option.map_eq_some_iff]
  refine ⟨?_, ?_⟩
  · intro h
    obtain ⟨r, hr, ha⟩ := h
    obtain ⟨hi, hr⟩ := getElem?_constraintRows.1 hr
    exact ⟨hi, (cell_of_getElem? hr _).trans ha⟩
  · intro h
    obtain ⟨hi, ha⟩ := h
    have hget := List.getElem?_eq_getElem (l := t.rows) (i := i) (by rw [length_rows]; omega)
    exact ⟨_, getElem?_constraintRows.2 ⟨hi, hget⟩, (cell_of_getElem? hget _).symm.trans ha⟩

/-! ### tests -/

theorem isOptimal_iff :
    t.isOptimal tolerance ↔ ∀ j < t.variableCount, -tolerance ≤ t.cell t.constraintCount j := by
  rw [isOptimal, List.all_eq_true]
  refine ⟨?_, ?_⟩
  · intro h j hj
    have hmem := List.mem_of_getElem? (getElem?_costs.2 ⟨hj, rfl⟩)
    exact of_decide_eq_true (h _ hmem)
  · intro h a ha
    obtain ⟨j, hget⟩ := List.mem_iff_getElem?.1 ha
    obtain ⟨hj, rfl⟩ := getElem?_costs.1 hget
    exact decide_eq_true (h j hj)

theorem isFeasible_iff :
    t.isFeasible tolerance ↔ ∀ i < t.constraintCount, -tolerance ≤ t.rhs i := by
  rw [isFeasible, List.all_eq_true]
  refine ⟨?_, ?_⟩
  · intro h i hi
    exact of_decide_eq_true (h _ (mem_rhsByRow.2 ⟨hi, rfl⟩))
  · intro h c hc
    obtain ⟨hi, hrhs⟩ := mem_rhsByRow.1 hc
    rw [← hrhs]
    exact decide_eq_true (h c.2 hi)

/-! ### candidates -/

theorem mem_enteringCandidates : (a, j) ∈ t.enteringCandidates tolerance ↔
    j < t.variableCount ∧ t.cell t.constraintCount j = a ∧ a < -tolerance := by
  rw [enteringCandidates, List.mem_filter, List.mem_zipIdx_iff_getElem?, getElem?_costs,
    decide_eq_true_iff, and_assoc]

theorem mem_dualLeavingCandidates : (a, i) ∈ t.dualLeavingCandidates tolerance ↔
    i < t.constraintCount ∧ t.rhs i = a ∧ a < -tolerance := by
  rw [dualLeavingCandidates, List.mem_filter, mem_rhsByRow, decide_eq_true_iff, and_assoc]

theorem mem_leavingCandidates : (a, i) ∈ t.leavingCandidates column tolerance ↔
    i < t.constraintCount ∧ tolerance < t.cell i column ∧ Scalar.belowTop a ∧
      t.rhs i / t.cell i column = a := by
  rw [leavingCandidates, List.mem_filterMap]
  refine ⟨?_, ?_⟩
  · intro h
    obtain ⟨⟨r, k⟩, hmem, hsome⟩ := h
    obtain ⟨hk, hr⟩ := getElem?_constraintRows.1 (List.mem_zipIdx_iff_getElem?.1 hmem)
    dsimp only at hsome
    split at hsome
    next hcond =>
      cases hsome
      rw [Bool.and_eq_true, decide_eq_true_iff] at hcond
      rw [rhs, cell_of_getElem? hr, cell_of_getElem? hr]
      exact ⟨hk, hcond.1, hcond.2, rfl⟩
    · cases hsome
  · intro h
    obtain ⟨hi, hlt, htop, rfl⟩ := h
    have hlt' : i < t.rows.length := by rw [length_rows]; omega
    have hget := List.getElem?_eq_getElem hlt'
    refine ⟨(t.rows[i], i), List.mem_zipIdx_iff_getElem?.2
      (getElem?_constraintRows.2 ⟨hi, hget⟩), ?_⟩
    rw [rhs, cell_of_getElem? hget, cell_of_getElem? hget] at htop ⊢
    rw [cell_of_getElem? hget] at hlt
    dsimp only
    rw [if_pos (by rw [Bool.and_eq_true, decide_eq_true_iff]; exact ⟨hlt, htop⟩)]

theorem mem_dualEnteringCandidates (hrow : row ≤ t.constraintCount) :
    (a, j) ∈ t.dualEnteringCandidates row tolerance ↔
      j < t.variableCount ∧ t.cell row j < -tolerance ∧ Scalar.belowTop a ∧
        Scalar.abs (t.cell t.constraintCount j / t.cell row j) = a := by
  rw [dualEnteringCandidates, List.mem_filterMap]
  refine ⟨?_, ?_⟩
  · intro h
    obtain ⟨⟨⟨z, e⟩, k⟩, hmem, hsome⟩ := h
    rw [List.mem_zipIdx_iff_getElem?, List.getElem?_zip_eq_some] at hmem
    dsimp only at hmem hsome
    obtain ⟨hk, hz⟩ := getElem?_costs.1 hmem.1
    have he := Option.some.inj ((getElem?_row hrow hk).symm.trans hmem.2)
    subst hz he
    split at hsome
    next hcond =>
      cases hsome
      rw [Bool.and_eq_true, decide_eq_true_iff] at hcond
      exact ⟨hk, hcond.1, hcond.2, rfl⟩
    · cases hsome
  · intro h
    obtain ⟨hj, hlt, htop, rfl⟩ := h
    refine ⟨((t.cell t.constraintCount j, t.cell row j), j), ?_, ?_⟩
    · rw [List.mem_zipIdx_iff_getElem?, List.getElem?_zip_eq_some]
      exact ⟨getElem?_costs.2 ⟨hj, rfl⟩, getElem?_row hrow hj⟩
    · dsimp only
      rw [if_pos (by rw [Bool.and_eq_true, decide_eq_true_iff]; exact ⟨hlt, htop⟩)]

/-! ### no candidate -/

/-- nothing leaves where the ratio of each entry beyond the tolerance is at the top of the scale -/
theorem leavingRow_eq_none_iff : t.leavingRow column tolerance = none ↔
    ∀ i < t.constraintCount, tolerance < t.cell i column →
      ¬ Scalar.belowTop (t.rhs i / t.cell i column) := by
  rw [leavingRow, firstLeast_eq_none_iff, List.eq_nil_iff_forall_not_mem]
  refine ⟨fun h i hi hentry htop => ?_, ?_⟩
  · exact h _ (mem_leavingCandidates.2 ⟨hi, hentry, htop, rfl⟩)
  · rintro h ⟨a, i⟩ hmem
    obtain ⟨hi, hentry, htop, rfl⟩ := mem_leavingCandidates.1 hmem
    exact h i hi hentry htop

theorem dualEnteringColumn_eq_none_iff (hrow : row ≤ t.constraintCount) :
    t.dualEnteringColumn row tolerance = none ↔
      ∀ j < t.variableCount, t.cell row j < -tolerance →
        ¬ Scalar.belowTop (Scalar.abs (t.cell t.constraintCount j / t.cell row j)) := by
  rw [dualEnteringColumn, firstLeast_eq_none_iff, List.eq_nil_iff_forall_not_mem]
  refine ⟨fun h j hj hentry htop => ?_, ?_⟩
  · exact h _ ((mem_dualEnteringCandidates hrow).2 ⟨hj, hentry, htop, rfl⟩)
  · rintro h ⟨a, j⟩ hmem
    obtain ⟨hj, hentry, htop, rfl⟩ := (mem_dualEnteringCandidates hrow).1 hmem
    exact h j hj hentry htop

/-! ### the entry of a pivot -/

theorem enteringColumn_below (h : t.enteringColumn tolerance = some column) :
    t.cell t.constraintCount column < -tolerance := by
  obtain ⟨a, ha⟩ := exists_mem_of_firstLeast h
  obtain ⟨-, rfl, hlt⟩ := mem_enteringCandidates.1 ha
  exact hlt

theorem dualLeavingRow_below (h : t.dualLeavingRow tolerance = some row) :
    t.rhs row < -tolerance := by
  obtain ⟨a, ha⟩ := exists_mem_of_firstLeast h
  obtain ⟨-, rfl, hlt⟩ := mem_dualLeavingCandidates.1 ha
  exact hlt

theorem leavingRow_beyond (h : t.leavingRow column tolerance = some row) :
    tolerance < t.cell row column := by
  obtain ⟨a, ha⟩ := exists_mem_of_firstLeast h
  exact (mem_leavingCandidates.1 ha).2.1

theorem dualEnteringColumn_beyond (hr : row ≤ t.constraintCount)
    (h : t.dualEnteringColumn row tolerance = some column) : t.cell row column < -tolerance := by
  obtain ⟨a, ha⟩ := exists_mem_of_firstLeast h
  exact ((mem_dualEnteringCandidates hr).1 ha).2.1

end Tableau

/-! ### the test and the search -/

namespace Method

/-- the entries that the test and the search for a pivot read: the reduced costs, or the right sides
of the constraint rows -/
def watched (m : Method) (t : Tableau α) : List α :=
  match m with
  | primal => t.costs
  | dual => t.rhsByRow.map (·.1)

variable {m : Method} {tolerance : α} {t : Tableau α}

theorem isOptimal_iff_watched :
    m.isOptimal tolerance t ↔ ∀ a ∈ m.watched t, -tolerance ≤ a := by
  cases m with
  | primal =>
    show t.isOptimal tolerance ↔ ∀ a ∈ t.costs, _
    simp only [Tableau.isOptimal, List.all_eq_true, decide_eq_true_iff]
  | dual =>
    show t.isFeasible tolerance ↔ ∀ a ∈ t.rhsByRow.map (·.1), _
    simp only [Tableau.isFeasible, List.all_eq_true, decide_eq_true_iff, List.forall_mem_map]

theorem selectPivot_eq_none_iff :
    m.selectPivot tolerance t = .ok none ↔ ∀ a ∈ m.watched t, ¬ a < -tolerance := by
  cases m with
  | primal =>
    have hsearch : primal.selectPivot tolerance t = .ok none ↔ t.enteringColumn tolerance = none :=
      ⟨selectPivot_primal_none, fun h => by simp only [selectPivot, h]⟩
    have hcosts : primal.watched t = t.costs.zipIdx.map (·.1) := (List.zipIdx_map_fst 0 _).symm
    rw [hsearch, Tableau.enteringColumn, firstLeast_eq_none_iff, Tableau.enteringCandidates,
      List.filter_eq_nil_iff, hcosts, List.forall_mem_map]
    simp only [decide_eq_true_iff]
  | dual =>
    have hsearch : dual.selectPivot tolerance t = .ok none ↔ t.dualLeavingRow tolerance = none :=
      ⟨selectPivot_dual_none, fun h => by simp only [selectPivot, h]⟩
    rw [hsearch, Tableau.dualLeavingRow, firstLeast_eq_none_iff, Tableau.dualLeavingCandidates,
      List.filter_eq_nil_iff, watched, List.forall_mem_map]
    simp only [decide_eq_true_iff]

end Method

/-! ### verdicts -/

theorem Method.selectPivot_unbounded_iff {tolerance : α} {t : Tableau α} {column : Nat} :
    primal.selectPivot tolerance t = .error (.unbounded column) ↔
      t.enteringColumn tolerance = some column ∧ t.leavingRow column tolerance = none := by
  refine ⟨fun h => ?_, fun h => ?_⟩
  · obtain ⟨c, heq, hentering, hleaving⟩ := selectPivot_primal_error h
    obtain rfl := Failure.unbounded.inj heq
    exact ⟨hentering, hleaving⟩
  · simp only [selectPivot, h.1, h.2]

theorem Method.selectPivot_infeasible_iff {tolerance : α} {t : Tableau α} {row : Nat} :
    dual.selectPivot tolerance t = .error (.infeasible row) ↔
      t.dualLeavingRow tolerance = some row ∧ t.dualEnteringColumn row tolerance = none := by
  refine ⟨fun h => ?_, fun h => ?_⟩
  · obtain ⟨r, heq, hleaving, hentering⟩ := selectPivot_dual_error h
    obtain rfl := Failure.infeasible.inj heq
    exact ⟨hleaving, hentering⟩
  · simp only [selectPivot, h.1, h.2]

/-- the entry of a pivot is above the tolerance, or below it negated, by the method -/
theorem Method.selectPivot_beyond {m : Method} {tolerance : α} {t : Tableau α} {row column : Nat}
    (h : m.selectPivot tolerance t = .ok (some (row, column))) :
    tolerance < t.cell row column ∨ t.cell row column < -tolerance := by
  cases m with
  | primal =>
    obtain ⟨-, hr⟩ := selectPivot_primal_some h
    exact Or.inl (Tableau.leavingRow_beyond hr)
  | dual =>
    obtain ⟨hr, hc⟩ := selectPivot_dual_some h
    have hrow := Nat.le_of_lt (Tableau.dualLeavingRow_lt hr)
    exact Or.inr (Tableau.dualEnteringColumn_beyond hrow hc)

/-- so it is not zero -/
theorem Method.pivot_ne_zero [ExactUnits α] {m : Method} {tolerance : α} {t : Tableau α}
    {row column : Nat} (h : m.selectPivot tolerance t = .ok (some (row, column)))
    (htol : 0 ≤ tolerance) : ¬ t.cell row column == 0 := by
  rcases m.selectPivot_beyond h with hlt | hlt
  · exact ExactUnits.not_zero_of_lt htol hlt
  · exact ExactUnits.not_zero_of_lt_neg htol hlt

end LinearProgram
