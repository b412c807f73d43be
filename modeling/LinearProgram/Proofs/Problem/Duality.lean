import LinearProgram.Proofs.Problem.Sign
import LinearProgram.Proofs.Problem.Slack
import LinearProgram.Proofs.Problem.Turned

/-!
# Weak duality

A point of a problem and a point of its dual differ in their objectives by what the slacks of each
weigh at the other.  At feasible points all of that has one sign.

* `Turned.gap_eq`, `gap_eq`   the difference of the objectives;
* `weak_duality`              the dual bounds the objective of a problem without equalities;
* `dual_of_objective_eq`      the dual point in an expression for the objective;
* `dual_bounds`               what the two problems say of each other.
-/

namespace LinearProgram

theorem Sense.prefers_flipped (s : Sense) (a b : Rat) : s.flipped.Prefers a b ↔ s.Prefers b a := by
  cases s <;> exact Iff.rfl

theorem Sense.beats_flipped (s : Sense) (a b : Rat) : s.flipped.Beats a b ↔ s.Beats b a := by
  cases s <;> exact Iff.rfl

theorem Sense.not_prefers_of_beats {s : Sense} {a b : Rat} (h : s.Beats a b) :
    ¬ s.Prefers b a := by
  cases s with
  | maximize => exact not_le.2 h
  | minimize => exact not_le.2 h

/-! ### turned rows -/

theorem Constraint.slackValue?_of_rowRelation {c : Constraint Rat} {s : Sense}
    (h : c.relation = s.rowRelation) (x : List Rat) :
    c.slackValue? x = some (s.sign * (c.rhs - dot c.coefficients x)) := by
  cases s with
  | maximize => rw [slackValue?, h, Sense.sign_maximize, one_mul]; rfl
  | minimize => rw [slackValue?, h, Sense.sign_minimize, neg_one_mul, neg_sub]; rfl

namespace Problem

/-- the left sides of the rows at a point -/
def leftSides (q : Problem Rat) (x : List Rat) : List Rat := q.matrix.map (dot · x)

variable {p q : Problem Rat} {x y : List Rat}

theorem slackValues_turned (p : Problem Rat) (x : List Rat) :
    p.turned.slackValues x = p.slackValues x := by
  show (p.constraints.map _).filterMap _ = _
  rw [List.filterMap_map]
  apply List.filterMap_congr
  intro c _
  exact (Constraint.turned (c.toward_turned _) x).1

theorem Turned.slackValues_eq (h : q.Turned) (x : List Rat) :
    q.slackValues x = q.constraints.map fun c => q.sense.sign * (c.rhs - dot c.coefficients x) := by
  rw [slackValues, ← List.filterMap_eq_map]
  apply List.filterMap_congr
  intro c hc
  exact Constraint.slackValue?_of_rowRelation (h c hc) x

/-- the slacks at `x`, weighed by `y` -/
theorem Turned.dot_slackValues (h : q.Turned) (x y : List Rat) :
    dot y (q.slackValues x) = q.sense.sign * (dot y q.rhs - dot y (q.leftSides x)) := by
  rw [h.slackValues_eq, dot_map_mul_sub, leftSides, matrix, List.map_map]
  rfl

/-! ### the transposed rows -/

theorem dot_leftSides_transposed (hx : x.length = q.variableCount) (y : List Rat) :
    dot x (q.transposed.leftSides y) = dot y (q.leftSides x) := by
  have hlen : (q.transposed.leftSides y).length = q.variableCount := by
    rw [leftSides, List.length_map, length_matrix, constraintCount_transposed]
  have hright : dot y (q.leftSides x) =
      ∑ j ∈ Finset.range q.variableCount, dot y (q.matrix.map (·.getD j 0)) * x.getD j 0 :=
    dot_map_dot _ _ hx
  rw [dot_comm, dot_eq_sum hx, hright]
  apply Finset.sum_congr rfl
  intro j hj
  have hj := Finset.mem_range.1 hj
  have hrow : (q.transposed.leftSides y).getD j 0 = dot y (q.matrix.map (·.getD j 0)) := by
    rw [List.getD_eq_getElem _ _ (by rw [hlen]; exact hj)]
    simp only [leftSides, matrix, transposed, List.getElem_map,
      List.getElem_mapIdx, List.map_map]
    exact dot_comm _ _
  rw [hrow]

theorem length_slackValues_transposed (q : Problem Rat) (y : List Rat) :
    (q.transposed.slackValues y).length = q.variableCount := by
  rw [q.turned_transposed.slackValues_eq, List.length_map]
  exact q.constraintCount_transposed

/-- How far the two objectives are apart: the slacks of each side, weighed by the other. -/
theorem Turned.gap_eq (h : q.Turned) (hx : x.length = q.variableCount) (y : List Rat) :
    q.sense.sign * (q.transposed.objectiveAt y - q.objectiveAt x) =
      dot y (q.slackValues x) + dot x (q.transposed.slackValues y) := by
  have hsense : q.transposed.sense.sign = -q.sense.sign := Sense.sign_flipped _
  have hdual : q.transposed.objectiveAt y = dot y q.rhs := dot_comm _ _
  have hobjective : q.objectiveAt x = dot x q.objective := dot_comm _ _
  rw [h.dot_slackValues, q.turned_transposed.dot_slackValues, dot_leftSides_transposed hx,
    rhs_transposed, hsense, hdual, hobjective]
  ring

/-- a feasible point has slacks that are not negative -/
theorem Feasible.slackValues_nonneg (hx : p.Feasible x) : ∀ v ∈ p.slackValues x, 0 ≤ v :=
  (nonneg_slackValues_iff.2 hx.holds).1

/-! ### problems without equalities -/

section
variable (hineq : ∀ c ∈ p.constraints, c.relation ≠ .equal)
include hineq

theorem inequalityCount_eq : p.inequalityCount = p.constraintCount := by
  rw [inequalityCount, constraintCount, List.countP_eq_length]
  intro c hc
  exact c.isInequality_iff.2 (hineq c hc)

theorem gap_eq (hx : x.length = p.variableCount) (y : List Rat) :
    p.sense.sign * (p.turned.transposed.objectiveAt y - p.objectiveAt x) =
      dot y (p.slackValues x) + dot x (p.turned.transposed.slackValues y) := by
  rw [← slackValues_turned]
  exact (turned_turned hineq).gap_eq hx y

/-- No feasible point of the problem is better than a feasible point of its dual. -/
theorem weak_duality {d : Problem Rat} (hd : p.dual = .ok d) (hx : p.Feasible x)
    (hy : d.Feasible y) : p.sense.Prefers (d.objectiveAt y) (p.objectiveAt x) := by
  obtain rfl : p.turned.transposed = d := Except.ok.inj ((dual_eq hineq).symm.trans hd)
  have hprimal := dot_nonneg hy.nonneg hx.slackValues_nonneg
  have hdual := dot_nonneg hx.nonneg hy.slackValues_nonneg
  rw [Sense.prefers_iff, gap_eq hineq hx.length_eq]
  exact add_nonneg hprimal hdual

/-- An objective that is written with its slacks, at every point, shows a point of the dual: the
factors of the slacks.  The other factors are the slacks of the dual there, and the constant is
its objective. -/
theorem dual_of_objective_eq {u : List Rat} {v : Rat} (hu : u.length = p.variableCount)
    (h : ∀ x, x.length = p.variableCount →
      p.objectiveAt x = p.sense.sign * (v - (dot u x + dot y (p.slackValues x)))) :
    u = p.turned.transposed.slackValues y ∧
      p.turned.transposed.objectiveAt y = p.sense.sign * v := by
  have hdot : ∀ x, x.length = p.variableCount → dot u x =
      v - p.sense.sign * p.turned.transposed.objectiveAt y +
        dot (p.turned.transposed.slackValues y) x := by
    intro x hx
    have hgap := gap_eq hineq hx y
    rw [h x hx, mul_sub, Sense.sign_mul_sign_mul, dot_comm x] at hgap
    linarith
  -- the constants, at the origin
  have hvalue : v = p.sense.sign * p.turned.transposed.objectiveAt y := by
    have horigin := hdot (List.replicate p.variableCount 0) List.length_replicate
    rw [dot_comm, dot_replicate_zero, dot_comm, dot_replicate_zero] at horigin
    linarith
  refine ⟨eq_of_dot_eq ?_ fun x hx => ?_, ?_⟩
  · rw [hu, length_slackValues_transposed]
    rfl
  · rw [hdot x (hx.trans hu), ← hvalue, sub_self, zero_add]
  · rw [hvalue, Sense.sign_mul_sign_mul]

/-- points at which the objectives meet are the best on either side -/
theorem optimum_of_objective_eq {d : Problem Rat} (hd : p.dual = .ok d) (hx : p.Feasible x)
    (hy : d.Feasible y) (h : p.objectiveAt x = d.objectiveAt y) : p.Optimum x ∧ d.Optimum y := by
  have hsense : d.sense = p.sense.flipped := by
    obtain rfl : p.turned.transposed = d := Except.ok.inj ((dual_eq hineq).symm.trans hd)
    rfl
  refine ⟨⟨hx, fun z hz => ?_⟩, ⟨hy, fun z hz => ?_⟩⟩
  · rw [h]
    exact weak_duality hineq hd hz hy
  · rw [hsense, Sense.prefers_flipped, ← h]
    exact weak_duality hineq hd hx hz

end

/-- A problem without equalities has a dual, and no feasible point of the problem is better than a
feasible point of the dual.  So feasible points at which the objectives meet are optima of both, and
where one of the two problems has no bound the other has no feasible point. -/
theorem dual_bounds (p : Problem Rat) (hineq : ∀ c ∈ p.constraints, c.relation ≠ .equal) :
    ∃ d, p.dual = .ok d ∧
      (∀ x y, p.Feasible x → d.Feasible y →
        p.sense.Prefers (d.objectiveAt y) (p.objectiveAt x) ∧
          (p.objectiveAt x = d.objectiveAt y → p.Optimum x ∧ d.Optimum y)) ∧
      (p.Unbounded → ¬ ∃ y, d.Feasible y) ∧ (d.Unbounded → ¬ ∃ x, p.Feasible x) := by
  have hd := dual_eq hineq
  refine ⟨p.turned.transposed, hd, ?_, ?_, ?_⟩
  · intro x y hx hy
    exact ⟨weak_duality hineq hd hx hy, optimum_of_objective_eq hineq hd hx hy⟩
  · rintro hbound ⟨y, hy⟩
    obtain ⟨x, hx, hbeats⟩ := hbound (p.turned.transposed.objectiveAt y)
    exact Sense.not_prefers_of_beats hbeats (weak_duality hineq hd hx hy)
  · rintro hbound ⟨x, hx⟩
    obtain ⟨y, hy, hbeats⟩ := hbound (p.objectiveAt x)
    have hbeats := (Sense.beats_flipped _ _ _).1 hbeats
    exact Sense.not_prefers_of_beats hbeats (weak_duality hineq hd hx hy)

/-- the least `2x + 3y` with `x + y >= 4` and `x - y <= 2`, rows both ways -/
def mixedCovers : Problem Rat :=
  ⟨[2, 3], .minimize, [⟨[1, 1], .greaterEqual, 4⟩, ⟨[1, -1], .lessEqual, 2⟩], by decide⟩

/-- the objectives meet at nine -/
theorem dual_bounds_mixedCovers :
    (∀ c ∈ mixedCovers.constraints, c.relation ≠ .equal) ∧ ∃ d, mixedCovers.dual = .ok d ∧
      d.Feasible [5 / 2, 1 / 2] ∧ mixedCovers.Optimum [3, 1] ∧ d.Optimum [5 / 2, 1 / 2] := by
  have hineq : ∀ c ∈ mixedCovers.constraints, c.relation ≠ .equal := by decide
  obtain ⟨d, hd, hpoints, -⟩ := dual_bounds mixedCovers hineq
  obtain rfl : mixedCovers.turned.transposed = d :=
    Except.ok.inj ((dual_eq hineq).symm.trans hd)
  have hx : mixedCovers.Feasible [3, 1] := ⟨⟨rfl, by decide +kernel⟩, by decide +kernel⟩
  have hy : mixedCovers.turned.transposed.Feasible [5 / 2, 1 / 2] :=
    ⟨⟨rfl, by decide +kernel⟩, by decide +kernel⟩
  exact ⟨hineq, _, hd, hy, (hpoints _ _ hx hy).2 (by decide +kernel)⟩

end Problem

end LinearProgram
