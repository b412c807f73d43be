import LinearProgram.Proofs.Problem.Duality
import LinearProgram.Proofs.Tableau.Represents

/-!
# Shadow prices

Let a tableau represent the standard form of a problem without equalities.  Its reduced costs in
the slack columns, the shadow prices, are a point of the dual; those in the columns before them
are the slacks of the dual there, and the objective of the tableau is that of the dual.  This
holds in every such tableau; in one that passes the test the point is feasible.

* `Represents.shadowPrices_eq`         the reduced costs, and the objective;
* `Represents.feasible_shadowPrices`   the dual point of a tableau that passes the test.
-/

namespace LinearProgram

/-- the reduced costs in the `n` columns after the first `m` -/
def Tableau.shadowPrices {α : Type} [Scalar α] (t : Tableau α) (m n : Nat) : List α :=
  (List.range n).map fun i => t.objectiveRow.getD (m + i) 0

namespace BasicTableau

theorem length_shadowPrices (t : Tableau Rat) (m n : Nat) : (t.shadowPrices m n).length = n := by
  rw [Tableau.shadowPrices, List.length_map, List.length_range]

theorem drop_costs {t : Tableau Rat} {m n : Nat} (h : t.variableCount = m + n) :
    t.costs.drop m = t.shadowPrices m n := by
  apply List.ext_getElem
  · rw [List.length_drop, Tableau.length_costs, h, length_shadowPrices, Nat.add_sub_cancel_left]
  · intro i _ _
    simp only [Tableau.shadowPrices, Tableau.costs, List.getElem_drop, List.getElem_take,
      List.getElem_map, List.getElem_range]
    exact List.getElem_eq_getD 0

section
variable {t : BasicTableau Rat} {p : Problem Rat} (h : t.Represents p.standardForm)
  (hineq : ∀ c ∈ p.constraints, c.relation ≠ .equal)
include h hineq

/-- the columns of a standard form are those of the variables and one for each row -/
theorem Represents.variableCount_standardForm :
    t.variableCount = p.variableCount + p.constraintCount := by
  rw [h.variableCount_eq, Problem.standardForm, Problem.variableCount_equalities,
    Problem.inequalityCount_eq hineq]

theorem Represents.length_take_costs :
    (t.costs.take p.variableCount).length = p.variableCount := by
  rw [List.length_take, Tableau.length_costs, h.variableCount_standardForm hineq]
  omega

/-- the objective of the problem at any point, feasible or not, by the reduced costs -/
theorem Represents.objectiveAt_slackValues {x : List Rat} (hx : x.length = p.variableCount) :
    p.objectiveAt x = p.sense.sign * (t.value - (dot (t.costs.take p.variableCount) x +
      dot (t.shadowPrices p.variableCount p.constraintCount) (p.slackValues x))) := by
  have hsat : p.standardForm.Satisfies (x ++ p.slackValues x) :=
    (Problem.satisfies_equalities_iff Problem.withNonnegRhs_turned hx).2
      ⟨rfl, fun c hc he => absurd he (hineq c hc)⟩
  have hobjective : p.standardForm.objectiveAt (x ++ p.slackValues x) = p.objectiveAt x :=
    Problem.objectiveAt_equalities hx
  have hcount := h.variableCount_standardForm hineq
  have htake : (t.costs.take p.variableCount).length = x.length := by
    rw [h.length_take_costs hineq, hx]
  rw [← hobjective, h.objectiveAt_eq hsat, ← drop_costs hcount, ← dot_append htake,
    List.take_append_drop]
  rfl

/-- The reduced costs are the slacks of the dual at the shadow prices, and the shadow prices; the
objective of the tableau is that of the dual there. -/
theorem Represents.shadowPrices_eq :
    t.costs = p.turned.transposed.slackValues (t.shadowPrices p.variableCount p.constraintCount) ++
        t.shadowPrices p.variableCount p.constraintCount ∧
      p.turned.transposed.objectiveAt (t.shadowPrices p.variableCount p.constraintCount) =
        t.objectiveValue := by
  obtain ⟨hslack, hobjective⟩ := Problem.dual_of_objective_eq hineq (h.length_take_costs hineq)
    fun x hx => h.objectiveAt_slackValues hineq hx
  refine ⟨?_, ?_⟩
  · rw [← hslack, ← drop_costs (h.variableCount_standardForm hineq), List.take_append_drop]
  · rw [hobjective, h.objectiveValue_eq]
    rfl

/-- in a tableau that passes the test the shadow prices are feasible for the dual -/
theorem Represents.feasible_shadowPrices (hoptimal : t.isOptimal 0) :
    p.turned.transposed.Feasible (t.shadowPrices p.variableCount p.constraintCount) := by
  have hcosts := costs_ge hoptimal
  rw [neg_zero, (h.shadowPrices_eq hineq).1, List.forall_mem_append] at hcosts
  refine ⟨⟨?_, ?_⟩, hcosts.2⟩
  · rw [length_shadowPrices, Problem.variableCount_transposed]
    simp [Problem.constraintCount, Problem.turned]
  · exact Problem.nonneg_slackValues_iff.1
      ⟨hcosts.1, fun c hc he => absurd he (p.turned.turned_transposed.ne_equal c hc)⟩

end

end BasicTableau

end LinearProgram
