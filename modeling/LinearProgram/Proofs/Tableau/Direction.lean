import LinearProgram.Proofs.Tableau.Represents

/-!
# Improving directions

A basic solution without negative entries may be an optimum although a reduced cost is negative:
a row with a zero right side can bar the way.  It is an optimum exactly when no direction that
these rows admit has a negative cost.

* `exists_step`                  a positive step that stays below all bounds;
* `Represents.feasible_along`    where a step along a direction ends;
* `Represents.optimum_iff`       the condition, for any tableau that represents a problem;
* `Represents.optimum`           reduced costs that are not negative are enough;
* `noImprovement_iff_of_rhs_pos`   and needed where no right side is zero.
-/

namespace LinearProgram

/-- some positive multiple of `g` stays below `r`, if `g` is not positive where `r` is zero -/
theorem exists_step {n : Nat} {r g : Nat → Rat} (hr : ∀ i < n, 0 ≤ r i)
    (hg : ∀ i < n, r i = 0 → g i ≤ 0) : ∃ e, 0 < e ∧ ∀ i < n, e * g i ≤ r i := by
  induction n with
  | zero => exact ⟨1, one_pos, fun i hi => absurd hi (Nat.not_lt_zero i)⟩
  | succ n ih =>
    obtain ⟨e, he, hle⟩ := ih (fun i hi => hr i (Nat.lt_succ_of_lt hi))
      fun i hi => hg i (Nat.lt_succ_of_lt hi)
    have hrn := hr n (Nat.lt_succ_self n)
    rcases le_or_gt (g n) 0 with hneg | hpos
    · refine ⟨e, he, fun i hi => ?_⟩
      rcases Nat.lt_succ_iff_lt_or_eq.1 hi with hi | rfl
      · exact hle i hi
      · exact (mul_nonpos_of_nonneg_of_nonpos he.le hneg).trans hrn
    · have hrpos : 0 < r n :=
        lt_of_le_of_ne hrn fun h0 => absurd (hg n (Nat.lt_succ_self n) h0.symm) (not_le.2 hpos)
      have hquot : 0 < r n / g n := div_pos hrpos hpos
      refine ⟨min e (r n / g n), lt_min he hquot, fun i hi => ?_⟩
      rcases Nat.lt_succ_iff_lt_or_eq.1 hi with hi | rfl
      · rcases le_or_gt (g i) 0 with hi0 | hi0
        · exact (mul_nonpos_of_nonneg_of_nonpos (le_min he.le hquot.le) hi0).trans
            (hr i (Nat.lt_succ_of_lt hi))
        · exact (mul_le_mul_of_nonneg_right (min_le_left _ _) hi0.le).trans (hle i hi)
      · rw [← le_div_iff₀ hpos]
        exact min_le_right _ _

/-- no direction that the rows with a zero right side admit has a negative cost -/
def Tableau.NoImprovement (t : Tableau Rat) : Prop :=
  ∀ d, d.length = t.variableCount → (∀ v ∈ d, 0 ≤ v) →
    (∀ row < t.constraintCount, t.rhs row = 0 → dot (t.coefficients row) d ≤ 0) →
    0 ≤ dot t.costs d

namespace BasicTableau

variable {t : BasicTableau Rat} {p : Problem Rat}

theorem Represents.prefers_iff (h : t.Represents p) {y : List Rat} (hy : p.Satisfies y) :
    p.sense.Prefers (p.objectiveAt t.solution.values) (p.objectiveAt y) ↔ 0 ≤ dot t.costs y := by
  have hdiff : t.value - (t.value - dot t.costs y) = dot t.costs y := by ring
  rw [h.objectiveAt_solution, h.objectiveAt_eq hy, h.objectiveValue_eq, Sense.prefers_iff,
    ← mul_sub, Sense.sign_mul_sign_mul, hdiff]

/-- A step along a direction ends in a feasible point as long as no basic value falls below zero. -/
theorem Represents.feasible_along (h : t.Represents p) {d : List Rat}
    (hd : d.length = t.variableCount) (hnonneg : ∀ v ∈ d, 0 ≤ v) {e : Rat} (he : 0 ≤ e)
    (hstep : ∀ i < t.constraintCount, e * dot (t.coefficients i) d ≤ t.rhs i) :
    ∃ y, p.Feasible y ∧ dot t.costs y = e * dot t.costs d := by
  have hsat := (h.satisfies_iff _).1 (h.canonical.satisfies_along hd e)
  exact ⟨t.along d e, ⟨hsat, along_nonneg h.canonical hd hnonneg he hstep⟩,
    h.canonical.dot_costs_along hd e⟩

theorem Represents.optimum_iff (h : t.Represents p)
    (hrhs : ∀ i < t.constraintCount, 0 ≤ t.rhs i) :
    p.Optimum t.solution.values ↔ t.NoImprovement := by
  refine ⟨?_, ?_⟩
  · intro hbest d hd hnonneg hbarred
    obtain ⟨e, he, hstep⟩ := exists_step hrhs hbarred
    obtain ⟨y, hy, hcosts⟩ := h.feasible_along hd hnonneg he.le hstep
    have hge := (h.prefers_iff hy.toSatisfies).1 (hbest.best y hy)
    rw [hcosts] at hge
    exact nonneg_of_mul_nonneg_right hge he
  · intro hnone
    refine ⟨h.feasible_solution hrhs, fun y hy => (h.prefers_iff hy.toSatisfies).2 ?_⟩
    have hsat := (h.satisfies_iff y).2 hy.toSatisfies
    refine hnone y hsat.length_eq hy.nonneg fun row hrow hzero => ?_
    rw [hsat.holds row hrow, hzero]

/-! ### reduced costs and directions -/

theorem noImprovement_of_isOptimal (hoptimal : t.isOptimal 0) : t.NoImprovement := by
  intro d _ hd _
  have hge := dot_costs_ge le_rfl hoptimal hd
  rwa [zero_mul, neg_zero] at hge

theorem Represents.optimum (h : t.Represents p) (hrhs : ∀ i < t.constraintCount, 0 ≤ t.rhs i)
    (hoptimal : t.isOptimal 0) : p.Optimum t.solution.values :=
  (h.optimum_iff hrhs).2 (noImprovement_of_isOptimal hoptimal)

/-- with no zero right side every column is an admitted direction -/
theorem noImprovement_iff_of_rhs_pos (hrhs : ∀ i < t.constraintCount, 0 < t.rhs i) :
    t.NoImprovement ↔ t.isOptimal 0 := by
  refine ⟨fun hnone => Tableau.isOptimal_iff.2 fun j hj => ?_, noImprovement_of_isOptimal⟩
  have hcost := hnone _ (length_axis _ j) (axis_nonneg _ j) fun i hi hzero =>
    absurd hzero (hrhs i hi).ne'
  rwa [dot_axis hj, getD_costs hj, ← neg_zero] at hcost

end BasicTableau

end LinearProgram
