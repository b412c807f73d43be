import LinearProgram.Proofs.Problem.Slack
import LinearProgram.Proofs.Solver.Answer

/-!
# What the dual method answers with

An answer of the dual method at tolerance zero is a feasible point with the objective it shows,
and it is an optimum exactly when the last tableau leaves no improving direction.  Reduced costs
that are not negative stay so, and then no such direction is left.  But the signs are checked on
the objective before the basis is priced out: a starting basis with a column of the problem in it
can make them negative, and then the answer need not be an optimum.

* `costs_kept_calls`   reduced costs that start non-negative stay so;
* `dual_answer`        what an answer says of the problem as given;
* `dual_answer_not_optimum`   an answer that is not an optimum.
-/

namespace LinearProgram

/-- the starting basis, if there is one, is priced out to reduced costs that are not negative -/
def Problem.StartsDualFeasible (p : Problem Rat) : Prop :=
  ∀ basis, p.startingBasis = .ok basis → (p.pricedOut basis).isOptimal 0

theorem isOptimal_zero_iff {t : Tableau Rat} :
    t.isOptimal 0 ↔ ∀ j < t.variableCount, 0 ≤ t.cell t.constraintCount j := by
  rw [Tableau.isOptimal_iff, neg_zero]

/-! ### the start -/

theorem admits_zero_iff (sense : Sense) (c : Rat) : Method.admits sense 0 c ↔
    match sense with
    | .maximize => c ≤ 0
    | .minimize => 0 ≤ c := by
  cases sense with
  | maximize => exact decide_eq_true_iff
  | minimize =>
    show decide (-0 ≤ c) = true ↔ 0 ≤ c
    rw [decide_eq_true_iff, neg_zero]

theorem admits_of_checkStart {p : Problem Rat} (h : Method.dual.checkStart 0 p = .ok ()) :
    ∀ c ∈ p.objective, Method.admits p.sense 0 c := by
  intro c hc
  simp only [Method.checkStart] at h
  split at h
  · cases h
  next hnone =>
    obtain ⟨j, hj⟩ := List.mem_iff_getElem?.1 hc
    have hfind := List.find?_eq_none.1 hnone (c, j) (List.mem_zipIdx_iff_getElem?.2 hj)
    simpa using hfind

/-- admitted costs are not negative in the objective row -/
theorem rawCosts_nonneg_of_checkStart {p : Problem Rat}
    (hstart : Method.dual.checkStart 0 p = .ok ()) {j : Nat} (hj : j < p.variableCount) :
    0 ≤ p.rawCosts.getD j 0 := by
  have hlt : j < p.objective.length := hj
  have hsign := admits_of_checkStart hstart _ (List.getElem_mem hlt)
  rw [← getD_of_lt hlt 0, admits_zero_iff] at hsign
  rw [Problem.getD_rawCosts hj]
  cases hsense : p.sense with
  | maximize =>
    rw [hsense] at hsign
    exact neg_nonneg.2 hsign
  | minimize =>
    rw [hsense] at hsign
    exact hsign

theorem rawCosts_eq_zero_of_slack {p : Problem Rat} {j : Nat}
    (hj : j < p.dualStandardForm.variableCount) (hslack : p.variableCount ≤ j) :
    p.dualStandardForm.rawCosts.getD j 0 = 0 := by
  have hzero : p.dualStandardForm.objective.getD j 0 = 0 := by
    show (p.objective ++ List.replicate p.inequalityCount 0).getD j 0 = 0
    rw [List.getD_append_right _ _ _ _ hslack, List.getD_eq_getElem?_getD,
      List.getElem?_replicate]
    split <;> rfl
  rw [Problem.getD_rawCosts hj, hzero]
  cases p.dualStandardForm.sense with
  | maximize => exact neg_zero
  | minimize => rfl

/-- priced out at slack columns, admitted costs are the reduced costs -/
theorem startsDualFeasible_of_slacks {p : Problem Rat}
    (hstart : Method.dual.checkStart 0 p.dualStandardForm = .ok ())
    (hslack : ∀ basis, p.dualStandardForm.startingBasis = .ok basis →
      ∀ b ∈ basis, p.variableCount ≤ b) : p.dualStandardForm.StartsDualFeasible := by
  intro basis hbasis
  have hpriced : priceOutAll p.dualStandardForm.rawCosts p.dualStandardForm.tableauRows basis =
      p.dualStandardForm.rawCosts := by
    apply foldl_priceOut_of_zero
    intro a ha
    have hmem := (List.of_mem_zip ha).2
    have hlt := Problem.lt_of_mem_startingBasis hbasis hmem
    exact beq_iff_eq.2 (rawCosts_eq_zero_of_slack hlt (hslack basis hbasis _ hmem))
  apply isOptimal_zero_iff.2
  intro j hj
  rw [Problem.variableCount_pricedOut] at hj
  rw [Problem.constraintCount_pricedOut, Tableau.cell, Problem.objectiveRow_pricedOut, hpriced]
  exact rawCosts_nonneg_of_checkStart hstart hj

/-! ### a run at tolerance zero -/

namespace Solver

/-- the tableau, if there is one, was started from an admitted objective, and its reduced costs
are as good as they were at the start -/
structure CostsKept (p : Problem Rat) (s : Solver Rat) : Prop where
  admitted : ∀ t, s.tableau? = some t → Method.dual.checkStart 0 p.dualStandardForm = .ok ()
  costs : p.dualStandardForm.StartsDualFeasible → ∀ t, s.tableau? = some t → t.isOptimal 0

variable {p : Problem Rat}

theorem CostsKept.transition {s s' : Solver Rat} (h : Transition s s') (hs : Faithful .dual p s)
    (htested : Tested 0 s) (hcosts : s.CostsKept p) : s'.CostsKept p := by
  refine ⟨?_, ?_⟩
  · intro u hu
    obtain hold | ⟨basis, hstage, hstart, -⟩ | ⟨t, row, column, hold, -⟩ := h.tableau_cases hu
    · exact hcosts.admitted u hold
    · rw [hs.method_eq, htested.tolerance_eq, hs.problem_of_transformed hstage] at hstart
      exact hstart
    · exact hcosts.admitted t hold
  · intro hgood u hu
    obtain hold | ⟨basis, hstage, -, hbasis, rfl⟩ | ⟨t, row, column, hold, hsome, -, rfl⟩ :=
      h.tableau_cases hu
    · exact hcosts.costs hgood u hold
    · rw [hs.problem_of_transformed hstage] at hbasis ⊢
      exact hgood basis hbasis
    · rw [hs.method_eq, htested.tolerance_eq] at hsome
      obtain ⟨hrow, hcolumn⟩ := Method.selectPivot_dual_some hsome
      exact isOptimal_zero_iff.2 (BasicTableau.costs_nonneg_pivot
        (isOptimal_zero_iff.1 (hcosts.costs hgood t hold)) (Tableau.dualLeavingRow_lt hrow) hcolumn)

theorem costs_kept_calls {cs : List (Call Rat)} (hcs : KeepTolerance 0 cs) :
    ((start .dual p 0).calls cs).1.CostsKept p := by
  refine calls_kept le_rfl hcs
    (fun s hs htested hcosts => hcosts.transition (transition_step s) hs htested)
    (fun _ _ hcosts => ⟨hcosts.admitted, hcosts.costs⟩) ⟨?_, ?_⟩
  · intro t ht
    cases ht
  · intro _ t ht
    cases ht

/-- An answer of the dual method at tolerance zero is feasible for the problem as given and has
the objective that it shows.  It is an optimum exactly when the last tableau leaves no improving
direction, which without a zero right side means that no reduced cost is negative.  A start
from reduced costs that are not negative is enough for that, and so is one from slack columns. -/
theorem dual_answer (p : Problem Rat) (limit : Option Nat) (n : Nat) {s : Solution Rat}
    (h : (((start .dual p 0).withMaxIterations limit).run n).1.result? = some (.ok s)) :
    let x := s.leadingValues p.variableCount
    p.Feasible x ∧ p.objectiveAt x = s.objectiveValue ∧
      (∃ t, (((start .dual p 0).withMaxIterations limit).run n).1.tableau? = some t ∧
        (p.Optimum x ↔ t.NoImprovement) ∧
        ((∀ i < t.constraintCount, 0 < t.rhs i) → (p.Optimum x ↔ t.isOptimal 0))) ∧
      (p.dualStandardForm.StartsDualFeasible → p.Optimum x) ∧
      ((∀ basis, p.dualStandardForm.startingBasis = .ok basis →
        ∀ b ∈ basis, p.variableCount ≤ b) → p.Optimum x) := by
  intro x
  obtain ⟨t, ht, rfl, hrep, hfeasible⟩ :=
    exists_answer (faithful_run le_rfl limit n) (tested_run limit n) h
  have hcosts := costs_kept_calls (p := p) (keepTolerance_run 0 limit n)
  have hrhs : ∀ i < t.constraintCount, 0 ≤ t.rhs i := by
    have hge := Tableau.isFeasible_iff.1 hfeasible
    rwa [neg_zero] at hge
  have hsolution : p.dualStandardForm.Feasible t.solution.values := hrep.feasible_solution hrhs
  have hiff : p.Optimum x ↔ t.NoImprovement :=
    (Problem.optimum_take_iff Problem.asLessEqual_turned hsolution).trans (hrep.optimum_iff hrhs)
  have hstart : p.dualStandardForm.StartsDualFeasible → p.Optimum x := fun hgood =>
    hiff.2 (BasicTableau.noImprovement_of_isOptimal (hcosts.costs hgood t ht))
  refine ⟨Problem.feasible_take Problem.asLessEqual_turned hsolution,
    (Problem.objectiveAt_take hsolution.toSatisfies).trans hrep.objectiveAt_solution,
    ⟨t, ht, hiff, fun hpos => hiff.trans (BasicTableau.noImprovement_iff_of_rhs_pos hpos)⟩,
    hstart, fun hslack => hstart (startsDualFeasible_of_slacks (hcosts.admitted t ht) hslack)⟩

theorem dual_answer_twoCovers :
    (((start .dual twoCovers 0).withMaxIterations none).run 9).1.result? =
        some (.ok ⟨[9 / 5, 2 / 5, 0, 0], 31 / 5⟩) ∧ twoCovers.Optimum [9 / 5, 2 / 5] := by
  have hsolution : (((start .dual twoCovers 0).withMaxIterations none).run 9).1.solution? =
      some ⟨[9 / 5, 2 / 5, 0, 0], 31 / 5⟩ := by decide +kernel
  have hresult : (((start .dual twoCovers 0).withMaxIterations none).run 9).1.result? =
      some (.ok ⟨[9 / 5, 2 / 5, 0, 0], 31 / 5⟩) := by rw [result?, hsolution]
  have hslack : twoCovers.dualStandardForm.startingBasis.toOption.all (·.all (2 ≤ ·)) := by
    decide +kernel
  refine ⟨hresult, (dual_answer twoCovers none 9 hresult).2.2.2.2 fun basis hbasis b hb => ?_⟩
  rw [hbasis] at hslack
  exact of_decide_eq_true (List.all_eq_true.1 hslack b hb)

/-- the greatest `-x - y` with `x + 5y <= 3`: the column of `x` is a unit column -/
def unitCost : Problem Rat := ⟨[-1, -1], .maximize, [⟨[1, 5], .lessEqual, 3⟩], by decide⟩

/-- The basis starts from `x` and prices its cost out into that of `y`; no right side is below
zero, so the method answers `x = 3` at once, where the origin is the optimum. -/
theorem dual_answer_not_optimum :
    (((start .dual unitCost 0).withMaxIterations none).run 9).1.result? =
        some (.ok ⟨[3, 0, 0], -3⟩) ∧ ¬ unitCost.Optimum [3, 0] := by
  have hsolution : (((start .dual unitCost 0).withMaxIterations none).run 9).1.solution? =
      some ⟨[3, 0, 0], -3⟩ := by decide +kernel
  refine ⟨by rw [result?, hsolution], fun hbest => ?_⟩
  have horigin : unitCost.Feasible [0, 0] := by
    refine ⟨⟨rfl, ?_⟩, ?_⟩
    · decide +kernel
    · decide +kernel
  exact absurd (hbest.best _ horigin) (by decide +kernel)

end Solver

end LinearProgram
