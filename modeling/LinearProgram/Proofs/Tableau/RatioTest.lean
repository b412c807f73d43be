import Mathlib.Algebra.Order.Field.Basic
import Mathlib.Algebra.Order.Field.Rat
import Mathlib.Tactic.Linarith
import Mathlib.Tactic.Ring
import LinearProgram.Proofs.Tableau.Candidates
import LinearProgram.Proofs.Tableau.Entries

/-!
# The ratio tests

Over the rationals a search finds a least candidate, and finds nothing only where there is no
candidate.  At tolerance zero the least ratio is what keeps a method feasible: the primal test
keeps the right sides non-negative, the dual test the reduced costs.

* `leavingRow_le`, `dualEnteringColumn_le`         the chosen ratio is a least one;
* `le_of_leavingRow_eq_none`, `ge_of_dualEnteringColumn_eq_none`   what a search that finds
                                                   nothing says of the entries;
* `rhs_nonneg_pivot`, `costs_nonneg_pivot`         what the tests keep;
* `Method.isOptimal_of_selectPivot`                with nowhere to pivot the test holds.
-/

namespace LinearProgram

/-! ### least candidates -/

theorem foldl_least_le (l : List (Rat × Nat)) (b : Rat × Nat) :
    ∀ c ∈ b :: l, (l.foldl (fun best d => if d.1 < best.1 then d else best) b).1 ≤ c.1 := by
  induction l generalizing b with
  | nil =>
    intro c hc
    rw [List.mem_singleton.1 hc]
    exact le_rfl
  | cons d l ih =>
    intro c hc
    rw [List.foldl_cons]
    by_cases h : d.1 < b.1
    · rw [if_pos h]
      rcases List.mem_cons.1 hc with rfl | hc
      · exact (ih d d List.mem_cons_self).trans h.le
      · exact ih d c hc
    · rw [if_neg h]
      rcases List.mem_cons.1 hc with rfl | hc
      · exact ih c c List.mem_cons_self
      · rcases List.mem_cons.1 hc with rfl | hc
        · exact (ih b b List.mem_cons_self).trans (not_lt.1 h)
        · exact ih b c (List.mem_cons_of_mem _ hc)

theorem le_of_firstLeast {cs : List (Rat × Nat)} {i : Nat} (h : firstLeast cs = some i) :
    ∃ a, (a, i) ∈ cs ∧ ∀ c ∈ cs, a ≤ c.1 := by
  cases cs with
  | nil => cases h
  | cons c rest =>
    obtain rfl := Option.some.inj h
    exact ⟨_, foldl_least_mem rest c, foldl_least_le rest c⟩

namespace Tableau

variable {t : Tableau Rat} {tolerance : Rat} {row column : Nat}

theorem leavingRow_le (h : t.leavingRow column tolerance = some row) {i : Nat}
    (hi : i < t.constraintCount) (hentry : tolerance < t.cell i column) :
    t.rhs row / t.cell row column ≤ t.rhs i / t.cell i column := by
  obtain ⟨a, ha, hle⟩ := le_of_firstLeast h
  obtain ⟨-, -, -, rfl⟩ := mem_leavingCandidates.1 ha
  have hmem : (t.rhs i / t.cell i column, i) ∈ t.leavingCandidates column tolerance :=
    mem_leavingCandidates.2 ⟨hi, hentry, rfl, rfl⟩
  have hbound := hle _ hmem
  exact hbound

theorem dualEnteringColumn_le (hr : row ≤ t.constraintCount)
    (h : t.dualEnteringColumn row tolerance = some column) {j : Nat} (hj : j < t.variableCount)
    (hentry : t.cell row j < -tolerance) :
    (t.cell t.constraintCount column / t.cell row column).abs ≤
      (t.cell t.constraintCount j / t.cell row j).abs := by
  obtain ⟨a, ha, hle⟩ := le_of_firstLeast h
  obtain ⟨-, -, -, rfl⟩ := (mem_dualEnteringCandidates hr).1 ha
  have hmem : ((t.cell t.constraintCount j / t.cell row j).abs, j) ∈
      t.dualEnteringCandidates row tolerance :=
    (mem_dualEnteringCandidates hr).2 ⟨hj, hentry, rfl, rfl⟩
  have hbound := hle _ hmem
  exact hbound

/-- without a leaving row no entry of the column lies above the tolerance -/
theorem le_of_leavingRow_eq_none (h : t.leavingRow column tolerance = none) {i : Nat}
    (hi : i < t.constraintCount) : t.cell i column ≤ tolerance :=
  not_lt.1 fun hentry => leavingRow_eq_none_iff.1 h i hi hentry rfl

/-- without an entering column no entry of the row lies below the tolerance negated -/
theorem ge_of_dualEnteringColumn_eq_none (hr : row ≤ t.constraintCount)
    (h : t.dualEnteringColumn row tolerance = none) {j : Nat} (hj : j < t.variableCount) :
    -tolerance ≤ t.cell row j :=
  not_lt.1 fun hentry => (dualEnteringColumn_eq_none_iff hr).1 h j hj hentry rfl

end Tableau

/-! ### what the tests keep -/

namespace BasicTableau

variable {t : BasicTableau Rat} {row column : Nat}

/-- a pivot over the rationals, one formula for all entries of the other rows -/
theorem cell_pivot (hr : row ≤ t.constraintCount) (hpivot : t.cell row column ≠ 0) {i j : Nat}
    (hi : i ≤ t.constraintCount) (hj : j ≤ t.variableCount) :
    (t.pivot row column).cell i j =
      if i = row then t.cell row j / t.cell row column
      else t.cell i j - t.cell i column * (t.cell row j / t.cell row column) := by
  by_cases hir : i = row
  · subst hir
    rw [cell_pivot_self hr hj, if_pos rfl]
    by_cases hjc : j = column
    · rw [if_pos hjc, hjc, div_self hpivot]
    · rw [if_neg hjc]
  · rw [cell_pivot_of_ne hr hi hir hj, if_neg hir]
    by_cases hzero : t.cell i column == 0
    · rw [if_pos hzero, beq_iff_eq.1 hzero, zero_mul, sub_zero]
    · rw [if_neg hzero]
      by_cases hjc : j = column
      · rw [if_pos hjc, hjc, div_self hpivot, mul_one, sub_self]
      · rw [if_neg hjc]

theorem rhs_nonneg_pivot (hrhs : ∀ i < t.constraintCount, 0 ≤ t.rhs i)
    (h : t.leavingRow column 0 = some row) :
    ∀ i < (t.pivot row column).constraintCount, 0 ≤ (t.pivot row column).rhs i := by
  intro i hi
  rw [constraintCount_pivot] at hi
  have hr := Tableau.leavingRow_lt h
  have hpos : 0 < t.cell row column := Tableau.leavingRow_beyond h
  have hratio : 0 ≤ t.rhs row / t.cell row column := div_nonneg (hrhs row hr) hpos.le
  have hcell : (t.pivot row column).rhs i = if i = row then t.rhs row / t.cell row column
      else t.rhs i - t.cell i column * (t.rhs row / t.cell row column) := by
    rw [Tableau.rhs, Tableau.rhsColumn, variableCount_pivot,
      cell_pivot hr.le hpos.ne' hi.le le_rfl]
    rfl
  rw [hcell]
  by_cases hir : i = row
  · rw [if_pos hir]
    exact hratio
  · rw [if_neg hir]
    rcases le_or_gt (t.cell i column) 0 with hneg | hentry
    · have hproduct := mul_nonpos_of_nonpos_of_nonneg hneg hratio
      have hi := hrhs i hi
      linarith
    · -- this row was a candidate too, with a ratio that is no smaller
      have hle := Tableau.leavingRow_le h hi hentry
      rw [le_div_iff₀ hentry] at hle
      linarith

theorem costs_nonneg_pivot (hcosts : ∀ j < t.variableCount, 0 ≤ t.cell t.constraintCount j)
    (hr : row < t.constraintCount) (h : t.dualEnteringColumn row 0 = some column) :
    ∀ j < (t.pivot row column).variableCount,
      0 ≤ (t.pivot row column).cell (t.pivot row column).constraintCount j := by
  intro j hj
  rw [variableCount_pivot] at hj
  have hneg : t.cell row column < 0 := by
    have hbeyond := Tableau.dualEnteringColumn_beyond hr.le h
    rwa [neg_zero] at hbeyond
  have hcolumn := hcosts column (Tableau.dualEnteringColumn_lt h)
  rw [constraintCount_pivot, cell_pivot hr.le hneg.ne le_rfl hj.le, if_neg (by omega)]
  rcases le_or_gt 0 (t.cell row j) with hpos | hentry
  · have hquot := div_nonpos_of_nonneg_of_nonpos hpos hneg.le
    have hproduct := mul_nonpos_of_nonneg_of_nonpos hcolumn hquot
    have hj := hcosts j hj
    linarith
  · -- this column was a candidate too, with a ratio that is no smaller
    have hle := Tableau.dualEnteringColumn_le hr.le h hj (by rwa [neg_zero])
    rw [Rat.abs_of_nonpos (div_nonpos_of_nonneg_of_nonpos hcolumn hneg.le),
      Rat.abs_of_nonpos (div_nonpos_of_nonneg_of_nonpos (hcosts j hj) hentry.le), neg_le_neg_iff,
      div_le_iff_of_neg hentry] at hle
    have hswap : t.cell t.constraintCount column / t.cell row column * t.cell row j =
        t.cell t.constraintCount column * (t.cell row j / t.cell row column) := by ring
    linarith

end BasicTableau

theorem Method.isOptimal_of_selectPivot {m : Method} {tolerance : Rat} {t : Tableau Rat}
    (h : m.selectPivot tolerance t = .ok none) : m.isOptimal tolerance t :=
  isOptimal_iff_watched.2 fun a ha => not_lt.1 (selectPivot_eq_none_iff.1 h a ha)

end LinearProgram
