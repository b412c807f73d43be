import LinearProgram.Proofs.Problem.Sign
import LinearProgram.Proofs.Tableau.BasicSolution
import LinearProgram.Proofs.Tableau.Candidates
import LinearProgram.Proofs.Tableau.CanonicalForm

/-!
# Tableaux that stand for a problem

A tableau represents a problem when it is canonical and says of every point what the problem says.
The initial tableau does, and a pivot keeps it so; what a tableau shows about optimality is then
true of the problem.

* `Problem.represents_pricedOut`, `Represents.pivot`   where such tableaux come from;
* `Represents.objective_le`, `Represents.le_objective`   bounds on the objective of a problem,
                                                         from the reduced costs of a tableau.
-/

namespace LinearProgram

namespace Tableau

variable (t : Tableau Rat)

theorem objectiveAt_eq_sign (x : List Rat) :
    t.objectiveAt x = t.sense.sign * (t.value - dot t.costs x) := by
  rw [objectiveAt]
  cases t.sense with
  | maximize => show _ = 1 * _; rw [one_mul]
  | minimize => show _ = -1 * _; rw [neg_one_mul]

theorem objectiveValue_eq_sign : t.objectiveValue = t.sense.sign * t.value := by
  rw [objectiveValue]
  cases t.sense with
  | maximize => show _ = 1 * _; rw [one_mul]
  | minimize => show _ = -1 * _; rw [neg_one_mul]

end Tableau

/-- the tableau is canonical, and says of every point what the problem says -/
structure BasicTableau.Represents (t : BasicTableau Rat) (p : Problem Rat) : Prop where
  canonical : t.Canonical
  sense_eq : t.sense = p.sense
  variableCount_eq : t.variableCount = p.variableCount
  constraintCount_eq : t.constraintCount = p.constraintCount
  satisfies_iff : ∀ x, t.Satisfies x ↔ p.Satisfies x
  objective_eq : ∀ x, p.Satisfies x → p.objectiveAt x = t.objectiveAt x

theorem Problem.represents_pricedOut {p : Problem Rat} {basis : List Nat}
    (heq : ∀ c ∈ p.constraints, c.relation = .equal) (h : p.startingBasis = .ok basis) :
    (p.pricedOut basis).Represents p where
  canonical := canonical_pricedOut h fun _ _ => trivial
  sense_eq := rfl
  variableCount_eq := p.variableCount_pricedOut basis
  constraintCount_eq := p.constraintCount_pricedOut basis
  satisfies_iff := satisfies_pricedOut heq basis
  objective_eq _ hx := (objectiveAt_pricedOut heq basis hx).symm

namespace BasicTableau

theorem isFinite_rat (t : Tableau Rat) : t.IsFinite := fun _ _ _ _ => trivial

theorem Represents.pivot {t : BasicTableau Rat} {p : Problem Rat} (h : t.Represents p)
    {row column : Nat} (hr : row < t.constraintCount) (hc : column < t.variableCount)
    (hpivot : ¬ t.cell row column == 0) : (t.pivot row column).Represents p where
  canonical := h.canonical.pivot (isFinite_rat _) hr hc hpivot
  sense_eq := by rw [sense_pivot, h.sense_eq]
  variableCount_eq := by rw [variableCount_pivot, h.variableCount_eq]
  constraintCount_eq := by rw [constraintCount_pivot, h.constraintCount_eq]
  satisfies_iff x := by
    rw [satisfies_pivot hr fun h0 => hpivot (beq_iff_eq.2 h0)]
    exact h.satisfies_iff x
  objective_eq x hx := by
    rw [objectiveAt_pivot hr (fun h0 => hpivot (beq_iff_eq.2 h0)) ((h.satisfies_iff x).2 hx)]
    exact h.objective_eq x hx

/-- the objective of the problem, by the reduced costs of the tableau -/
theorem Represents.objectiveAt_eq {t : BasicTableau Rat} {p : Problem Rat} (h : t.Represents p)
    {x : List Rat} (hx : p.Satisfies x) :
    p.objectiveAt x = p.sense.sign * (t.value - dot t.costs x) := by
  rw [h.objective_eq x hx, t.objectiveAt_eq_sign, h.sense_eq]

theorem Represents.objectiveValue_eq {t : BasicTableau Rat} {p : Problem Rat}
    (h : t.Represents p) : t.objectiveValue = p.sense.sign * t.value := by
  rw [t.objectiveValue_eq_sign, h.sense_eq]

/-- the basic solution solves the problem, up to signs, with the objective of the tableau -/
theorem Represents.satisfies_solution {t : BasicTableau Rat} {p : Problem Rat}
    (h : t.Represents p) : p.Satisfies t.solution.values :=
  (h.satisfies_iff _).1 h.canonical.satisfies_basicValues

theorem Represents.objectiveAt_solution {t : BasicTableau Rat} {p : Problem Rat}
    (h : t.Represents p) : p.objectiveAt t.solution.values = t.objectiveValue :=
  (h.objective_eq _ h.satisfies_solution).trans h.canonical.objectiveAt_basicValues

theorem Represents.feasible_solution {t : BasicTableau Rat} {p : Problem Rat}
    (h : t.Represents p) (hrhs : ∀ i < t.constraintCount, 0 ≤ t.rhs i) :
    p.Feasible t.solution.values :=
  ⟨h.satisfies_solution, spread_nonneg h.canonical hrhs⟩

/-! ### bounds from the reduced costs -/

theorem costs_ge {t : Tableau Rat} {tolerance : Rat} (hoptimal : t.isOptimal tolerance) :
    ∀ c ∈ t.costs, -tolerance ≤ c := by
  intro c hc
  obtain ⟨j, hget⟩ := List.mem_iff_getElem?.1 hc
  obtain ⟨hj, rfl⟩ := Tableau.getElem?_costs.1 hget
  exact Tableau.isOptimal_iff.1 hoptimal j hj

theorem dot_costs_ge {t : BasicTableau Rat} {tolerance : Rat} (htol : 0 ≤ tolerance)
    (hoptimal : t.isOptimal tolerance) {x : List Rat} (hx : ∀ v ∈ x, 0 ≤ v) :
    -(tolerance * x.sum) ≤ dot t.costs x :=
  dot_ge_of_forall_ge htol (costs_ge hoptimal) hx

section
variable {t : BasicTableau Rat} {p : Problem Rat} {tolerance : Rat} {x : List Rat}

theorem Represents.objective_le (h : t.Represents p) (hsense : p.sense = .maximize)
    (htol : 0 ≤ tolerance) (hoptimal : t.isOptimal tolerance) (hx : p.Feasible x) :
    p.objectiveAt x ≤ t.objectiveValue + tolerance * x.sum := by
  have hcosts := dot_costs_ge htol hoptimal hx.nonneg
  rw [h.objective_eq x hx.toSatisfies, Tableau.objectiveAt, Tableau.objectiveValue, h.sense_eq,
    hsense]
  show t.value - dot t.costs x ≤ t.value + tolerance * x.sum
  linarith

theorem Represents.le_objective (h : t.Represents p) (hsense : p.sense = .minimize)
    (htol : 0 ≤ tolerance) (hoptimal : t.isOptimal tolerance) (hx : p.Feasible x) :
    t.objectiveValue - tolerance * x.sum ≤ p.objectiveAt x := by
  have hcosts := dot_costs_ge htol hoptimal hx.nonneg
  rw [h.objective_eq x hx.toSatisfies, Tableau.objectiveAt, Tableau.objectiveValue, h.sense_eq,
    hsense]
  show -t.value - tolerance * x.sum ≤ -(t.value - dot t.costs x)
  linarith

end

end BasicTableau

end LinearProgram
