import LinearProgram.Proofs.Solver.PrimalOptimum
import LinearProgram.Proofs.Tableau.ShadowPrices

/-!
# The primal method answers with shadow prices

When the primal method has solved a problem without equalities at tolerance zero, the last tableau
shows an optimum of the dual: its reduced costs in the slack columns.

* `strong_duality`   the shadow prices, with the objective of the answer.
-/

namespace LinearProgram

namespace Solver

variable {cs : List (Call Rat)}

/-- After any calls at tolerance zero that end in an answer: the shadow prices of the last tableau
are an optimum of the dual, with the objective that the answer shows. -/
theorem strong_duality (p : Problem Rat) (hineq : ∀ c ∈ p.constraints, c.relation ≠ .equal)
    (hcs : KeepTolerance 0 cs) {s : Solution Rat}
    (h : ((start .primal p 0).calls cs).1.result? = some (.ok s)) :
    ∃ t d, ((start .primal p 0).calls cs).1.tableau? = some t ∧ p.dual = .ok d ∧
      d.Optimum (t.shadowPrices p.variableCount p.constraintCount) ∧
      d.objectiveAt (t.shadowPrices p.variableCount p.constraintCount) = s.objectiveValue := by
  obtain ⟨t, ht, rfl, hrep, hoptimal⟩ :=
    exists_answer (faithful_calls le_rfl hcs) (tested_calls hcs) h
  have hrep : t.Represents p.standardForm := hrep
  have hdual := Problem.dual_eq hineq
  have hfeasible := hrep.feasible_shadowPrices hineq hoptimal
  have hobjective := (hrep.shadowPrices_eq hineq).2
  -- the answer itself is feasible, so that no dual point can be better
  have hsolution : p.standardForm.Feasible t.solution.values :=
    hrep.feasible_solution (rhs_nonneg_calls hcs t ht)
  have hpoint := Problem.feasible_take Problem.withNonnegRhs_turned hsolution
  have hvalue : p.objectiveAt (t.solution.values.take p.variableCount) = t.objectiveValue :=
    (Problem.objectiveAt_take hsolution.toSatisfies).trans hrep.objectiveAt_solution
  refine ⟨t, _, ht, hdual, ⟨hfeasible, fun z hz => ?_⟩, hobjective⟩
  have hweak := Problem.weak_duality hineq hdual hpoint hz
  rw [hvalue] at hweak
  rw [hobjective]
  exact (p.sense.prefers_flipped _ _).2 hweak

/-- the greatest `3x + 4y - z - w`, with inequalities both ways and right sides of both signs; `z`
and `w` are basic from the start -/
def mixedInequalities : Problem Rat :=
  ⟨[3, 4, -1, -1], .maximize, [⟨[1, 1, 0, 0], .lessEqual, 4⟩, ⟨[-1, -3, 0, 0], .greaterEqual, -6⟩,
    ⟨[-1, 0, -1, 0], .lessEqual, -1⟩, ⟨[0, 1, 0, 1], .greaterEqual, 2⟩], by decide⟩

theorem strong_duality_mixedInequalities :
    (∀ c ∈ mixedInequalities.constraints, c.relation ≠ .equal) ∧
      KeepTolerance 0 [.setMaxIterations (some 5), .run 9] ∧
      ((start .primal mixedInequalities 0).calls
        [.setMaxIterations (some 5), .run 9]).1.result? =
        some (.ok ⟨[3, 1, 0, 1, 0, 0, 2, 0], 12⟩) ∧
      ∃ d, mixedInequalities.dual = .ok d ∧ d.Optimum [2, 1, 0, 1] ∧
        d.objectiveAt [2, 1, 0, 1] = 12 := by
  have hineq : ∀ c ∈ mixedInequalities.constraints, c.relation ≠ .equal := by decide
  have hcs := keepTolerance_run 0 (some 5) 9
  have hsolution : ((start .primal mixedInequalities 0).calls
      [.setMaxIterations (some 5), .run 9]).1.solution? =
      some ⟨[3, 1, 0, 1, 0, 0, 2, 0], 12⟩ := by decide +kernel
  have hprices : ((start .primal mixedInequalities 0).calls
      [.setMaxIterations (some 5), .run 9]).1.tableau?.map (·.shadowPrices 4 4) =
      some [2, 1, 0, 1] := by decide +kernel
  have hresult : ((start .primal mixedInequalities 0).calls
      [.setMaxIterations (some 5), .run 9]).1.result? =
      some (.ok ⟨[3, 1, 0, 1, 0, 0, 2, 0], 12⟩) := by rw [result?, hsolution]
  obtain ⟨t, d, ht, hd, hbest, hobjective⟩ :=
    strong_duality mixedInequalities hineq hcs hresult
  rw [ht] at hprices
  have hprices : t.shadowPrices mixedInequalities.variableCount
      mixedInequalities.constraintCount = [2, 1, 0, 1] := Option.some.inj hprices
  rw [hprices] at hbest hobjective
  exact ⟨hineq, hcs, hresult, d, hd, hbest, hobjective⟩

end Solver

end LinearProgram
