import LinearProgram.Proofs.Problem.Slack
import LinearProgram.Proofs.Solver.Answer

/-!
# The primal method answers with an optimum

At tolerance zero the right sides of the tableaux stay non-negative, so the last basic solution is
feasible; at any tolerance the reduced costs of the last tableau bound the objective of every
feasible point.

* `rhs_nonneg_calls`  the right sides after any calls at tolerance zero;
* `primal_optimum`    what an answer of the primal method says of the problem as given.
-/

namespace LinearProgram

namespace Solver

/-- the tableau, if there is one, has no negative right side -/
def RhsNonneg (s : Solver Rat) : Prop :=
  ∀ t, s.tableau? = some t → ∀ i < t.constraintCount, 0 ≤ t.rhs i

variable {p : Problem Rat}

theorem rhs_nonneg_pricedOut (p : Problem Rat) (basis : List Nat) :
    ∀ i < (p.standardForm.pricedOut basis).constraintCount,
      0 ≤ (p.standardForm.pricedOut basis).rhs i := by
  intro i hi
  rw [Problem.constraintCount_pricedOut] at hi
  obtain ⟨c, hc, hrhs⟩ := Problem.exists_rhs_pricedOut basis hi
  rw [hrhs]
  exact p.rhs_nonneg_standardForm c hc

theorem RhsNonneg.transition {s s' : Solver Rat} (h : Transition s s') (hs : Faithful .primal p s)
    (htested : Tested 0 s) (hrhs : s.RhsNonneg) : s'.RhsNonneg := by
  intro u hu
  obtain hold | ⟨basis, hstage, -, -, rfl⟩ | ⟨t, row, column, hold, hsome, -, rfl⟩ :=
    h.tableau_cases hu
  · exact hrhs u hold
  · rw [hs.problem_of_transformed hstage]
    exact rhs_nonneg_pricedOut p basis
  · rw [hs.method_eq, htested.tolerance_eq] at hsome
    exact BasicTableau.rhs_nonneg_pivot (hrhs t hold) (Method.selectPivot_primal_some hsome).2

theorem rhs_nonneg_calls {cs : List (Call Rat)} (hcs : KeepTolerance 0 cs) :
    ((start .primal p 0).calls cs).1.RhsNonneg := by
  refine calls_kept le_rfl hcs
    (fun s hs htested hrhs => hrhs.transition (transition_step s) hs htested)
    (fun _ _ hrhs => hrhs) ?_
  intro t ht
  cases ht

/-- An answer of the primal method at tolerance `t`: with its slack values a feasible point is
feasible for the standard form, and its objective is better than that of the answer by no more
than `t` times the sum of all its entries.  At `t = 0` the leading values are an optimum of the
problem as given, with the objective that the answer shows. -/
theorem primal_optimum (p : Problem Rat) {tolerance : Rat} (htol : 0 ≤ tolerance)
    (limit : Option Nat) (n : Nat) {s : Solution Rat}
    (h : (((start .primal p tolerance).withMaxIterations limit).run n).1.result? = some (.ok s)) :
    (∀ x, p.Feasible x → p.standardForm.Feasible (p.withSlackValues x) ∧
      (p.sense = .maximize →
        p.objectiveAt x ≤ s.objectiveValue + tolerance * (p.withSlackValues x).sum) ∧
      (p.sense = .minimize →
        s.objectiveValue - tolerance * (p.withSlackValues x).sum ≤ p.objectiveAt x)) ∧
    (tolerance = 0 → p.Optimum (s.leadingValues p.variableCount) ∧
      p.objectiveAt (s.leadingValues p.variableCount) = s.objectiveValue) := by
  obtain ⟨t, ht, rfl, hrep, hoptimal⟩ :=
    exists_answer (faithful_run htol limit n) (tested_run limit n) h
  refine ⟨?_, ?_⟩
  · intro x hx
    have hslack : p.standardForm.Feasible (p.withSlackValues x) :=
      Problem.feasible_withSlackValues Problem.withNonnegRhs_turned hx
    have hobjective : p.standardForm.objectiveAt (p.withSlackValues x) = p.objectiveAt x :=
      Problem.objectiveAt_equalities hx.length_eq
    rw [← hobjective]
    exact ⟨hslack, fun hsense => hrep.objective_le hsense htol hoptimal hslack,
      fun hsense => hrep.le_objective hsense htol hoptimal hslack⟩
  · rintro rfl
    have hrhs := rhs_nonneg_calls (keepTolerance_run 0 limit n) t ht
    have hbest : p.standardForm.Optimum t.solution.values := hrep.optimum hrhs hoptimal
    exact ⟨(Problem.optimum_take_iff Problem.withNonnegRhs_turned hbest.toFeasible).2 hbest,
      (Problem.objectiveAt_take hbest.toSatisfies).trans hrep.objectiveAt_solution⟩

/-- the greatest `3x + 4y + z` with a row of each relation and a right side below zero; `z` is
basic from the start and has to be priced out -/
def mixedRows : Problem Rat :=
  ⟨[3, 4, 1], .maximize, [⟨[1, 1, 0], .lessEqual, 4⟩, ⟨[-1, -3, 0], .greaterEqual, -6⟩,
    ⟨[1, 0, 1], .equal, 5⟩], by decide⟩

theorem primal_optimum_mixedRows :
    (((start .primal mixedRows 0).withMaxIterations (some 9)).run 9).1.result? =
        some (.ok ⟨[3, 1, 2, 0, 0], 15⟩) ∧
      mixedRows.Optimum [3, 1, 2] ∧ mixedRows.objectiveAt [3, 1, 2] = 15 := by
  have hsolution : (((start .primal mixedRows 0).withMaxIterations (some 9)).run 9).1.solution? =
      some ⟨[3, 1, 2, 0, 0], 15⟩ := by decide +kernel
  have hresult : (((start .primal mixedRows 0).withMaxIterations (some 9)).run 9).1.result? =
      some (.ok ⟨[3, 1, 2, 0, 0], 15⟩) := by rw [result?, hsolution]
  exact ⟨hresult, (primal_optimum mixedRows le_rfl (some 9) 9 hresult).2 rfl⟩

end Solver

end LinearProgram
