import LinearProgram.Proofs.Tableau.Certificate
import LinearProgram.Proofs.Tableau.Improvement
import LinearProgram.Proofs.Tableau.Sequence

/-!
# The rule of the dual method

The dual method pivots in a row with a negative right side, in the column with the least ratio of
cost to entry.  From reduced costs that are not negative it leads to such costs again, with a value
that is no larger, and its equations stay those of the start.  So both ways to end are right about
the start: a basic solution without negative entries is a best one, and a row without negative
entries leaves no solution at all.

* `DualKept`             what a chosen pivot keeps, and so any number of them;
* `DualKept.optimal`     with nothing left to choose;
* `DualKept.infeasible`  with a row that bars all points;
* `dual_rule_sound`      all of it, for a tableau with reduced costs that are not negative.
-/

namespace LinearProgram

namespace BasicTableau

/-- the dual method at tolerance zero pivots here -/
def DualChoice (t : BasicTableau Rat) (row column : Nat) : Prop :=
  Method.dual.selectPivot 0 t.toTableau = .ok (some (row, column))

/-- a tableau that the dual method can reach: it says what the first one says, with costs that are
not negative and no larger a value -/
structure DualKept (t u : BasicTableau Rat) : Prop where
  canonical : u.Canonical
  agrees : u.Agrees t
  costs_nonneg : ∀ c ∈ u.costs, 0 ≤ c
  value_le : u.value ≤ t.value

variable {t u : BasicTableau Rat} {row column : Nat}

theorem costs_nonneg_iff :
    (∀ c ∈ t.costs, 0 ≤ c) ↔ ∀ j < t.variableCount, 0 ≤ t.cell t.constraintCount j := by
  refine ⟨fun h j hj => h _ (List.mem_of_getElem? (Tableau.getElem?_costs.2 ⟨hj, rfl⟩)), ?_⟩
  intro h c hc
  obtain ⟨j, hget⟩ := List.mem_iff_getElem?.1 hc
  obtain ⟨hj, rfl⟩ := Tableau.getElem?_costs.1 hget
  exact h j hj

/-! ### a pivot, and any number of them -/

/-- one pivot of the dual method and the value -/
theorem DualKept.value_pivot (hu : t.DualKept u) (h : u.DualChoice row column) :
    (u.pivot row column).value ≤ u.value ∧
      ((u.pivot row column).value < u.value ↔ 0 < u.cell u.constraintCount column) := by
  obtain ⟨hleaving, hentering⟩ := Method.selectPivot_dual_some h
  have hcost := costs_nonneg_iff.1 hu.costs_nonneg column (Tableau.dualEnteringColumn_lt hentering)
  exact ⟨value_pivot_le hleaving hentering hcost, value_pivot_lt_iff hleaving hentering⟩

theorem DualKept.pivot (hu : t.DualKept u) (h : u.DualChoice row column) :
    t.DualKept (u.pivot row column) := by
  have hplace := pivotPlace_of_selectPivot h
  obtain ⟨-, hentering⟩ := Method.selectPivot_dual_some h
  refine ⟨hu.canonical.pivot_place hplace, (Agrees.pivot hplace).trans hu.agrees, ?_, ?_⟩
  · apply costs_nonneg_iff.2
    exact costs_nonneg_pivot (costs_nonneg_iff.1 hu.costs_nonneg) hplace.row_lt hentering
  · exact (hu.value_pivot h).1.trans hu.value_le

theorem DualKept.pivots (ht : t.Canonical) (hcosts : ∀ c ∈ t.costs, 0 ≤ c)
    {places : List (Nat × Nat)} (h : AllPivots DualChoice t places) :
    t.DualKept (t.pivots places) := by
  apply AllPivots.kept (Q := t.DualKept) _ h ⟨ht, Agrees.refl t, hcosts, le_rfl⟩
  intro u row column hu hchoice
  exact hu.pivot hchoice

/-! ### the end -/

/-- With no negative right side the basic solution is the best of all that are not negative. -/
theorem DualKept.optimal (hu : t.DualKept u)
    (h : Method.dual.selectPivot 0 u.toTableau = .ok none) :
    t.Satisfies u.solution.values ∧ (∀ v ∈ u.solution.values, 0 ≤ v) ∧
      t.maximizedAt u.solution.values = u.value ∧
      ∀ x, t.Satisfies x → (∀ v ∈ x, 0 ≤ v) → t.maximizedAt x ≤ u.value := by
  have hrhs : ∀ i < u.constraintCount, 0 ≤ u.rhs i := by
    have hfeasible := Tableau.isFeasible_iff.1 (Method.isOptimal_of_selectPivot h)
    rwa [neg_zero] at hfeasible
  have hsat := (hu.agrees.satisfies_iff _).1 hu.canonical.satisfies_basicValues
  refine ⟨hsat, spread_nonneg hu.canonical hrhs, ?_, fun x hx hnonneg => ?_⟩
  · -- the costs do not see the basic columns
    show t.maximizedAt u.basicValues = u.value
    rw [hu.agrees.symm.maximizedAt_eq _ hu.canonical.satisfies_basicValues, Tableau.maximizedAt,
      basicValues_eq_spread, hu.canonical.dot_costs_spread, sub_zero]
  · rw [← hu.agrees.maximizedAt_eq x hx, Tableau.maximizedAt]
    exact sub_le_self _ (dot_nonneg hu.costs_nonneg hnonneg)

theorem DualKept.infeasible (hu : t.DualKept u)
    (h : Method.dual.selectPivot 0 u.toTableau = .error (.infeasible row)) {x : List Rat}
    (hx : t.Satisfies x) : ¬ ∀ v ∈ x, 0 ≤ v := by
  obtain ⟨hleaving, hnone⟩ := Method.selectPivot_infeasible_iff.1 h
  have hr := Tableau.dualLeavingRow_lt hleaving
  have hrhs : u.rhs row < 0 := by
    have hbelow := Tableau.dualLeavingRow_below hleaving
    rwa [neg_zero] at hbelow
  refine not_nonneg_of_row hr (fun j hj => ?_) hrhs ((hu.agrees.satisfies_iff x).2 hx)
  have hge := Tableau.ge_of_dualEnteringColumn_eq_none hr.le hnone hj
  rwa [neg_zero] at hge

/-- From a canonical tableau with reduced costs that are not negative, after any number of pivots
that the dual method chooses: the costs are not negative still, and the value has not grown.  The
next pivot does not let it grow either, and lowers it exactly where the cost of its column is
positive.  With nothing left to choose, the basic solution has no negative entry and is the best of
all such solutions of the tableau that the method started from; and where a row is reported, that
tableau has no such solution. -/
theorem dual_rule_sound {t : BasicTableau Rat} (ht : t.Canonical) (hcosts : ∀ c ∈ t.costs, 0 ≤ c)
    {places : List (Nat × Nat)} (hplaces : AllPivots DualChoice t places) :
    let u := t.pivots places
    u.Canonical ∧ (∀ c ∈ u.costs, 0 ≤ c) ∧ u.value ≤ t.value ∧
      (∀ x, u.Satisfies x ↔ t.Satisfies x) ∧
      (∀ row column, u.DualChoice row column → (u.pivot row column).value ≤ u.value ∧
        ((u.pivot row column).value < u.value ↔ 0 < u.cell u.constraintCount column)) ∧
      (Method.dual.selectPivot 0 u.toTableau = .ok none →
        t.Satisfies u.solution.values ∧ (∀ v ∈ u.solution.values, 0 ≤ v) ∧
          t.maximizedAt u.solution.values = u.value ∧
          ∀ x, t.Satisfies x → (∀ v ∈ x, 0 ≤ v) → t.maximizedAt x ≤ u.value) ∧
      ∀ row, Method.dual.selectPivot 0 u.toTableau = .error (.infeasible row) →
        ∀ x, t.Satisfies x → ¬ ∀ v ∈ x, 0 ≤ v := by
  intro u
  have hu := DualKept.pivots ht hcosts hplaces
  exact ⟨hu.canonical, hu.costs_nonneg, hu.value_le, hu.agrees.satisfies_iff,
    fun _ _ hchoice => hu.value_pivot hchoice, hu.optimal, fun _ h _ hx => hu.infeasible h hx⟩

/-- the tableau of the least `3x + 2y` with `2x + y >= 4` and `x + 3y >= 3`, from its slacks -/
def coveringSlacks : BasicTableau Rat :=
  Problem.pricedOut
    ⟨[3, 2, 0, 0], .minimize, [⟨[-2, -1, 1, 0], .equal, -4⟩, ⟨[-1, -3, 0, 1], .equal, -3⟩],
      by decide⟩ [2, 3]

/-- two pivots, and the value falls to that of the best solution -/
theorem dual_rule_sound_coveringSlacks :
    coveringSlacks.Canonical ∧ (∀ c ∈ coveringSlacks.costs, 0 ≤ c) ∧
      AllPivots DualChoice coveringSlacks [(0, 0), (1, 1)] ∧
      (coveringSlacks.pivots [(0, 0), (1, 1)]).value = -31 / 5 ∧
      ∀ x, coveringSlacks.Satisfies x → (∀ v ∈ x, 0 ≤ v) →
        coveringSlacks.maximizedAt x ≤ -31 / 5 := by
  have hcanonical : coveringSlacks.Canonical :=
    Problem.canonical_pricedOut (by decide +kernel) fun _ _ => trivial
  have hcosts : ∀ c ∈ coveringSlacks.costs, 0 ≤ c := by decide +kernel
  have hplaces : AllPivots DualChoice coveringSlacks [(0, 0), (1, 1)] := by
    refine ⟨?_, ?_, trivial⟩
    · show Method.dual.selectPivot 0 _ = _
      decide +kernel
    · show Method.dual.selectPivot 0 _ = _
      decide +kernel
  have hvalue : (coveringSlacks.pivots [(0, 0), (1, 1)]).value = -31 / 5 := by decide +kernel
  have hend : Method.dual.selectPivot 0 (coveringSlacks.pivots [(0, 0), (1, 1)]).toTableau =
      .ok none := by decide +kernel
  obtain ⟨-, -, -, -, -, hoptimal, -⟩ := dual_rule_sound hcanonical hcosts hplaces
  obtain ⟨-, -, -, hbest⟩ := hoptimal hend
  rw [hvalue] at hbest
  exact ⟨hcanonical, hcosts, hplaces, hvalue, hbest⟩

end BasicTableau

end LinearProgram
