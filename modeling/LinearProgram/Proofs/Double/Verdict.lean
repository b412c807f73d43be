import LinearProgram.Proofs.Double.Quotient
import LinearProgram.Proofs.Double.Total
import LinearProgram.Proofs.Tableau.Candidates
import LinearProgram.Proofs.Tableau.CanonicalForm

/-!
# Verdicts over doubles

The ratio tests look for a ratio below infinity, and a ratio of two finite doubles can be infinite:
then an entry beyond the tolerance counts for nothing.  So a column is called unbounded, and a row
infeasible, exactly where each entry is within the tolerance or its ratio overflows.

* `Double.not_belowTop_div_iff`   the ratios that the primal test passes over;
* `Double.not_belowTop_abs_div_iff`   those of the dual test;
* `unbounded_iff_overflows`, `infeasible_iff_overflows`   the verdicts;
* `verdict_iff_overflows`     both, and when overflow has no part in them;
* `verdict_of_overflow`       a tableau where it has.
-/

namespace LinearProgram

namespace Double

variable {x y t : Float}

/-! ### a finite double against a tolerance -/

theorem rank_le_of_isFinite (hx : x.isFinite) : rank x ≤ infinityRank := (rank_lt_of_isFinite hx).le

theorem isFinite_neg (hx : x.isFinite) : (-x).isFinite := by
  have hneg : ExactUnits.IsFinite (-x) := ExactUnits.isFinite_neg hx
  exact hneg

theorem rank_zero : rank 0 = 0 := by decide +kernel

theorem position_zero : position 0 = 0 := by decide +kernel

theorem not_lt_iff (hx : x.isFinite) (hy : y.isFinite) : ¬ x < y ↔ y ≤ x :=
  not_lt_iff_le (isNaN_of_isFinite hx) (isNaN_of_isFinite hy)

theorem pos_iff (hx : x.isFinite) : 0 < x ↔ isNegative x = false ∧ 0 < rank x := by
  have hzero : rank 0 ≤ infinityRank := by rw [rank_zero]; exact Nat.zero_le _
  rw [lt_iff_position hzero (rank_le_of_isFinite hx), position_zero, position]
  cases isNegative x with
  | true =>
    rw [if_pos rfl]
    exact ⟨fun h => by omega, fun h => absurd h.1 (by decide)⟩
  | false =>
    rw [if_neg Bool.false_ne_true]
    exact ⟨fun h => ⟨rfl, by omega⟩, fun h => by omega⟩

theorem position_le (x : Float) : -rank x ≤ position x ∧ position x ≤ rank x := by
  rw [position]
  split_ifs <;> omega

theorem position_of_nonneg (hx : x.isFinite) (h : 0 ≤ x) : position x = rank x := by
  have hzero : rank 0 ≤ infinityRank := by rw [rank_zero]; exact Nat.zero_le _
  rw [le_iff_position hzero (rank_le_of_isFinite hx), position_zero] at h
  rw [position] at h ⊢
  split_ifs at h ⊢ <;> omega

/-- above a tolerance that is not negative -/
theorem rank_le_of_lt (ht : t.isFinite) (hy : y.isFinite) (h0 : 0 ≤ t) (h : t < y) :
    isNegative y = false ∧ rank t ≤ rank y := by
  rw [lt_iff_position (rank_le_of_isFinite ht) (rank_le_of_isFinite hy),
    position_of_nonneg ht h0, position] at h
  cases hsign : isNegative y with
  | true =>
    rw [hsign, if_pos rfl] at h
    omega
  | false =>
    rw [hsign, if_neg Bool.false_ne_true] at h
    exact ⟨rfl, by omega⟩

/-- below such a tolerance negated -/
theorem rank_le_of_lt_neg (ht : t.isFinite) (hy : y.isFinite) (h0 : 0 ≤ t) (h : y < -t) :
    rank t ≤ rank y := by
  rw [lt_iff_position (rank_le_of_isFinite hy) (rank_le_of_isFinite (isFinite_neg ht)),
    position_neg (rank_le_of_isFinite ht), position_of_nonneg ht h0] at h
  have hle := (position_le y).1
  omega

theorem Overflows.of_rank_le (h : Overflows x y) (hle : rank t ≤ rank y) : Overflows x t :=
  (Nat.mul_le_mul_left _ (units_mono hle)).trans h

theorem Overflows.rank_pos (h : Overflows x y) (hy : 0 < rank y) : 0 < rank x := by
  have hzero := units_zero_iff (rank x)
  have hunits : 0 < units (rank y) := by
    have hzero' := units_zero_iff (rank y)
    omega
  have hunits' : 0 < units (rank x) := (Nat.mul_pos overflowBound_pos hunits).trans_le h
  omega

/-! ### ratios -/

theorem belowTop_iff (hx : rank x ≤ infinityRank) :
    Scalar.belowTop x ↔ position x < infinityRank := by
  have htop : rank (1 / 0) = infinityRank := by decide +kernel
  have hplace : position (1 / 0) = infinityRank := by decide +kernel
  show decide (x < 1 / 0) = true ↔ _
  rw [decide_eq_true_iff, lt_iff_position hx htop.le, hplace]

section
variable (hx : x.isFinite) (hy : y.isFinite)
include hx hy

theorem rank_div_le (h0 : ¬ y == 0) : rank (x / y) ≤ infinityRank := by
  rw [rank_div hx hy h0]
  exact rankOf_le_infinityRank _ _

/-- a ratio by a number above the tolerance is passed over if it is positive and overflows -/
theorem not_belowTop_div_iff (ht : t.isFinite) (h0 : 0 ≤ t) (h : t < y) :
    ¬ Scalar.belowTop (x / y) ↔ 0 < x ∧ Overflows x y := by
  have hne : ¬ y == 0 := ExactUnits.not_zero_of_lt h0 h
  have hle := rank_div_le hx hy hne
  have hoverflow := rank_div_eq_infinity_iff hx hy hne
  have hinfinity : 0 < infinityRank := by decide
  have hsign : isNegative (x / y) = isNegative x := by
    rw [isNegative_div hx hy hne, (rank_le_of_lt ht hy h0 h).1, Bool.bne_false]
  rw [belowTop_iff hle, pos_iff hx, ← hoverflow, position, hsign]
  cases isNegative x with
  | true =>
    rw [if_pos rfl]
    exact ⟨fun h => by omega, fun h => absurd h.1.1 (by decide)⟩
  | false =>
    rw [if_neg Bool.false_ne_true]
    refine ⟨fun h => ?_, fun h => by omega⟩
    have heq : rank (x / y) = infinityRank := by omega
    exact ⟨⟨rfl, (hoverflow.1 heq).rank_pos (rank_pos_of_not_zero hy hne)⟩, heq⟩

theorem not_belowTop_abs_div_iff (hne : ¬ y == 0) :
    ¬ Scalar.belowTop (Scalar.abs (x / y)) ↔ Overflows x y := by
  have hle := rank_div_le hx hy hne
  have habs : Scalar.abs (x / y) = (x / y).abs := rfl
  have hplace : position (x / y).abs = rank (x / y) := by
    rw [position, isNegative_abs, rank_abs, if_neg Bool.false_ne_true]
  rw [habs, belowTop_iff (by rw [rank_abs]; exact hle), hplace, ← rank_div_eq_infinity_iff hx hy hne]
  omega

end

end Double
open Double

/-! ### verdicts -/

section
variable {t : Tableau Float} (ht : t.IsFinite) {tolerance : Float} (hfinite : tolerance.isFinite)
  (htolerance : 0 ≤ tolerance) {row column : Nat}
include ht hfinite htolerance

theorem unbounded_iff_overflows :
    Method.primal.selectPivot tolerance t = .error (.unbounded column) ↔
      t.enteringColumn tolerance = some column ∧ ∀ i < t.constraintCount,
        t.cell i column ≤ tolerance ∨ 0 < t.rhs i ∧ Overflows (t.rhs i) (t.cell i column) := by
  rw [Method.selectPivot_unbounded_iff, Tableau.leavingRow_eq_none_iff]
  refine and_congr_right fun hentering => forall₂_congr fun i hi => ?_
  have hcell : (t.cell i column).isFinite := ht i hi.le column (Tableau.enteringColumn_lt hentering).le
  have hrhs : (t.rhs i).isFinite := ht i hi.le _ le_rfl
  rw [← not_lt_iff hfinite hcell]
  by_cases hentry : tolerance < t.cell i column
  · rw [not_belowTop_div_iff hrhs hcell hfinite htolerance hentry]
    exact ⟨fun h => Or.inr (h hentry), fun h _ => h.resolve_left (not_not.2 hentry)⟩
  · exact ⟨fun _ => Or.inl hentry, fun _ h => absurd h hentry⟩

theorem infeasible_iff_overflows :
    Method.dual.selectPivot tolerance t = .error (.infeasible row) ↔
      t.dualLeavingRow tolerance = some row ∧ ∀ j < t.variableCount,
        -tolerance ≤ t.cell row j ∨ Overflows (t.cell t.constraintCount j) (t.cell row j) := by
  rw [Method.selectPivot_infeasible_iff]
  refine and_congr_right fun hleaving => ?_
  have hr := Tableau.dualLeavingRow_lt hleaving
  rw [Tableau.dualEnteringColumn_eq_none_iff hr.le]
  refine forall₂_congr fun j hj => ?_
  have hcell : (t.cell row j).isFinite := ht row hr.le j hj.le
  have hcost : (t.cell t.constraintCount j).isFinite := ht _ le_rfl j hj.le
  rw [← not_lt_iff hcell (isFinite_neg hfinite)]
  by_cases hentry : t.cell row j < -tolerance
  · rw [not_belowTop_abs_div_iff hcost hcell (ExactUnits.not_zero_of_lt_neg htolerance hentry)]
    exact ⟨fun h => Or.inr (h hentry), fun h _ => h.resolve_left (not_not.2 hentry)⟩
  · exact ⟨fun _ => Or.inl hentry, fun _ h => absurd h hentry⟩

/-- A method gives its verdict exactly where each entry of the chosen column or row is within the
tolerance or has a ratio that overflows.  Overflow has no part in it, and the verdict is about the
entries, as long as no entry of the tableau is so large that its quotient by the tolerance
overflows. -/
theorem verdict_iff_overflows :
    (∀ column, Method.primal.selectPivot tolerance t = .error (.unbounded column) ↔
      t.enteringColumn tolerance = some column ∧ ∀ i < t.constraintCount,
        t.cell i column ≤ tolerance ∨ 0 < t.rhs i ∧ Overflows (t.rhs i) (t.cell i column)) ∧
      (∀ row, Method.dual.selectPivot tolerance t = .error (.infeasible row) ↔
        t.dualLeavingRow tolerance = some row ∧ ∀ j < t.variableCount,
          -tolerance ≤ t.cell row j ∨ Overflows (t.cell t.constraintCount j) (t.cell row j)) ∧
      ((∀ i ≤ t.constraintCount, ∀ j ≤ t.variableCount, ¬ Overflows (t.cell i j) tolerance) →
        (∀ column, Method.primal.selectPivot tolerance t = .error (.unbounded column) →
          ∀ i < t.constraintCount, t.cell i column ≤ tolerance) ∧
        ∀ row, Method.dual.selectPivot tolerance t = .error (.infeasible row) →
          ∀ j < t.variableCount, -tolerance ≤ t.cell row j) := by
  refine ⟨fun _ => unbounded_iff_overflows ht hfinite htolerance,
    fun _ => infeasible_iff_overflows ht hfinite htolerance, fun hsmall => ⟨?_, ?_⟩⟩
  · intro column h i hi
    obtain ⟨hentering, hentries⟩ := (unbounded_iff_overflows ht hfinite htolerance).1 h
    have hcell := ht i hi.le column (Tableau.enteringColumn_lt hentering).le
    rw [← not_lt_iff hfinite hcell]
    intro hlt
    have hrank := (rank_le_of_lt hfinite hcell htolerance hlt).2
    obtain ⟨-, hoverflow⟩ := (hentries i hi).resolve_left fun hle =>
      (not_lt_iff hfinite hcell).2 hle hlt
    exact hsmall i hi.le _ le_rfl (hoverflow.of_rank_le hrank)
  · intro row h j hj
    obtain ⟨hleaving, hentries⟩ := (infeasible_iff_overflows ht hfinite htolerance).1 h
    have hcell := ht row (Tableau.dualLeavingRow_lt hleaving).le j hj.le
    have hneg := isFinite_neg hfinite
    rw [← not_lt_iff hcell hneg]
    intro hlt
    have hrank := rank_le_of_lt_neg hfinite hcell htolerance hlt
    have hoverflow := (hentries j hj).resolve_left fun hge => (not_lt_iff hcell hneg).2 hge hlt
    exact hsmall _ le_rfl j hj.le (hoverflow.of_rank_le hrank)

end

/-- one constraint row for each method, with an entry far smaller than what it is to divide -/
def farRatios : Tableau Float where
  rows := [[1e-9, 0, 1e300], [0, -1e-9, -1e-9], [-1, 1e300, 0]]
  sense := .maximize
  variableCount := 2
  rows_ne_nil := nofun
  width_eq := by decide

theorem isFinite_farRatios : farRatios.IsFinite := by
  apply Tableau.isFinite_of_rows
  show ∀ row ∈ farRatios.rows, ∀ a ∈ row, a.isFinite = true
  decide +kernel

/-- both verdicts come from ratios that overflow -/
theorem verdict_iff_overflows_farRatios :
    farRatios.IsFinite ∧ (1e-10 : Float).isFinite ∧ (0 : Float) ≤ 1e-10 ∧
      Method.primal.selectPivot 1e-10 farRatios = .error (.unbounded 0) ∧
      (farRatios.cell 0 0 ≤ 1e-10 ∨
        0 < farRatios.rhs 0 ∧ Overflows (farRatios.rhs 0) (farRatios.cell 0 0)) ∧
      (-1e-10 ≤ farRatios.cell 1 1 ∨ Overflows (farRatios.cell 2 1) (farRatios.cell 1 1)) := by
  have hfinite : (1e-10 : Float).isFinite := by decide +kernel
  have htolerance : (0 : Float) ≤ 1e-10 := by decide +kernel
  have hprimal : Method.primal.selectPivot 1e-10 farRatios = .error (.unbounded 0) := by
    decide +kernel
  have hdual : Method.dual.selectPivot 1e-10 farRatios = .error (.infeasible 1) := by
    decide +kernel
  obtain ⟨hunbounded, hinfeasible, -⟩ :=
    verdict_iff_overflows isFinite_farRatios hfinite htolerance
  exact ⟨isFinite_farRatios, hfinite, htolerance, hprimal,
    ((hunbounded 0).1 hprimal).2 0 (by decide), ((hinfeasible 1).1 hdual).2 1 (by decide)⟩

/-- All numbers are finite, and the primal method calls a column unbounded that has an entry above
the tolerance, the dual method a row infeasible that has one below it negated. -/
theorem verdict_of_overflow :
    farRatios.IsFinite ∧ (1e-10 : Float).isFinite ∧ (0 : Float) ≤ 1e-10 ∧
      Method.primal.selectPivot 1e-10 farRatios = .error (.unbounded 0) ∧
      ¬ farRatios.cell 0 0 ≤ 1e-10 ∧
      Method.dual.selectPivot 1e-10 farRatios = .error (.infeasible 1) ∧
      ¬ -1e-10 ≤ farRatios.cell 1 1 := by
  refine ⟨isFinite_farRatios, ?_, ?_, ?_, ?_, ?_, ?_⟩ <;> decide +kernel

end LinearProgram
