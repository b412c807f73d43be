import LinearProgram.Proofs.Problem.Duality

/-!
# The forms of a problem keep the problem

A standard form has the points of the problem with one slack for each inequality, and no others:
the slacks are determined by the point, they are not negative just where the inequalities hold, and
they cost nothing.  Turning the rows for the dual changes nothing at all.

* `SlackForm`                what a problem has to do with a form of it that has slacks;
* `slackForm_equalities`     it has this to do with its rows turned at will and made equalities;
* `feasible_turned`          turned rows;
* `forms_keep_problem`       both standard forms, and the rows turned for the dual.
-/

namespace LinearProgram

namespace Problem

/-- `q` is `p` written with equations, over one more variable for each inequality of `p`. -/
structure SlackForm (p q : Problem Rat) : Prop where
  sense_eq : q.sense = p.sense
  relation_eq : ∀ c ∈ q.constraints, c.relation = .equal
  /-- whatever the signs of the point itself -/
  satisfies_iff : ∀ x, x.length = p.variableCount →
    (p.Satisfies x ↔
      ∃ s, s.length = p.inequalityCount ∧ (∀ v ∈ s, 0 ≤ v) ∧ q.Satisfies (x ++ s))
  feasible_iff : ∀ x, x.length = p.variableCount →
    (p.Feasible x ↔ ∃ s, s.length = p.inequalityCount ∧ q.Feasible (x ++ s))
  slacks_unique : ∀ x s s', x.length = p.variableCount → q.Satisfies (x ++ s) →
    q.Satisfies (x ++ s') → s = s'
  objectiveAt_eq : ∀ x s, x.length = p.variableCount → q.objectiveAt (x ++ s) = p.objectiveAt x

variable {p : Problem Rat}

/-! ### slacks -/

section
variable {orient : Constraint Rat → Constraint Rat}
  {hlen : ∀ c, (orient c).coefficients.length = c.coefficients.length}

theorem satisfies_iff_slackValues {x : List Rat} (hx : x.length = p.variableCount) :
    p.Satisfies x ↔ (∀ v ∈ p.slackValues x, 0 ≤ v) ∧
      ∀ c ∈ p.constraints, c.relation = .equal → c.Holds x := by
  rw [nonneg_slackValues_iff]
  exact ⟨fun h => h.holds, fun h => ⟨hx, h⟩⟩

theorem slackForm_equalities (horient : ∀ c, orient c = c ∨ orient c = c.negated) :
    p.SlackForm (p.equalities orient hlen) where
  sense_eq := rfl
  relation_eq _ hc := p.relation_of_mem_equalities orient hlen hc
  satisfies_iff x hx := by
    rw [satisfies_iff_slackValues hx]
    refine ⟨?_, ?_⟩
    · rintro ⟨hslack, hequal⟩
      exact ⟨p.slackValues x, p.length_slackValues x, hslack,
        (satisfies_equalities_iff horient hx).2 ⟨rfl, hequal⟩⟩
    · rintro ⟨s, -, hnonneg, hs⟩
      obtain ⟨rfl, hequal⟩ := (satisfies_equalities_iff horient hx).1 hs
      exact ⟨hnonneg, hequal⟩
  feasible_iff x hx := by
    refine ⟨?_, ?_⟩
    · intro h
      exact ⟨p.slackValues x, p.length_slackValues x,
        (feasible_equalities_iff horient hx).2 ⟨rfl, h⟩⟩
    · rintro ⟨s, -, hs⟩
      exact ((feasible_equalities_iff horient hx).1 hs).2
  slacks_unique x s s' hx hs hs' := by
    rw [((satisfies_equalities_iff horient hx).1 hs).1,
      ((satisfies_equalities_iff horient hx).1 hs').1]
  objectiveAt_eq _ _ hx := objectiveAt_equalities hx

end

/-! ### turned rows -/

theorem satisfies_turned (p : Problem Rat) (x : List Rat) : p.turned.Satisfies x ↔ p.Satisfies x := by
  have hholds : (∀ d ∈ p.turned.constraints, d.Holds x) ↔ ∀ c ∈ p.constraints, c.Holds x := by
    show (∀ d ∈ p.constraints.map _, Constraint.Holds d x) ↔ _
    rw [List.forall_mem_map]
    apply forall₂_congr
    intro c _
    exact (Constraint.turned (c.toward_turned _) x).2.1
  exact ⟨fun h => ⟨h.length_eq, hholds.1 h.holds⟩, fun h => ⟨h.length_eq, hholds.2 h.holds⟩⟩

theorem feasible_turned (p : Problem Rat) (x : List Rat) : p.turned.Feasible x ↔ p.Feasible x := by
  refine ⟨?_, ?_⟩
  · rintro ⟨hsat, hnonneg⟩
    exact ⟨(p.satisfies_turned x).1 hsat, hnonneg⟩
  · rintro ⟨hsat, hnonneg⟩
    exact ⟨(p.satisfies_turned x).2 hsat, hnonneg⟩

/-- Both standard forms are the problem with one slack for each inequality.  The rows turned for the
dual, where there is no equality, are the problem itself: the same points with the same
objective. -/
theorem forms_keep_problem (p : Problem Rat) :
    p.SlackForm p.standardForm ∧ p.SlackForm p.dualStandardForm ∧
      ∀ q, p.prepared = .ok q → q.objective = p.objective ∧ q.sense = p.sense ∧
        ∀ x, (q.Feasible x ↔ p.Feasible x) ∧ q.objectiveAt x = p.objectiveAt x := by
  refine ⟨slackForm_equalities withNonnegRhs_turned, slackForm_equalities asLessEqual_turned, ?_⟩
  intro q hq
  obtain rfl := eq_turned_of_prepared hq
  exact ⟨rfl, rfl, fun x => ⟨p.feasible_turned x, rfl⟩⟩

/-- rows of all three relations, with right sides of both signs -/
def mixedSigns : Problem Rat :=
  ⟨[2, 1], .maximize, [⟨[1, 1], .lessEqual, 4⟩, ⟨[-1, -1], .lessEqual, -1⟩, ⟨[1, -1], .equal, 1⟩,
    ⟨[1, 0], .greaterEqual, 1⟩, ⟨[0, -1], .greaterEqual, -3⟩], by decide⟩

/-- inequalities of which one has to be turned for the dual -/
def bothWays : Problem Rat :=
  ⟨[3, 1], .minimize, [⟨[1, 1], .lessEqual, 4⟩, ⟨[1, -1], .greaterEqual, -1⟩], by decide⟩

theorem forms_keep_problem_mixedSigns :
    (mixedSigns.Feasible [2, 1] ∧
      (∀ s, mixedSigns.standardForm.Satisfies ([2, 1] ++ s) → s = [1, 2, 1, 2]) ∧
      mixedSigns.dualStandardForm.objectiveAt ([2, 1] ++ [1, 2, 1, 2]) = 5) ∧
    bothWays.prepared = .ok bothWays.turned ∧ bothWays.Feasible [1, 2] ∧
      bothWays.turned.Feasible [1, 2] := by
  obtain ⟨hstandard, hdual, -⟩ := forms_keep_problem mixedSigns
  obtain ⟨-, -, hprepared⟩ := forms_keep_problem bothWays
  have hpoint : mixedSigns.standardForm.Feasible ([2, 1] ++ [1, 2, 1, 2]) :=
    ⟨⟨by decide, by decide +kernel⟩, by decide +kernel⟩
  have hturned : bothWays.prepared = .ok bothWays.turned := rfl
  have hboth : bothWays.Feasible [1, 2] := ⟨⟨by decide, by decide +kernel⟩, by decide +kernel⟩
  refine ⟨⟨?_, fun s hs => ?_, ?_⟩, hturned, hboth, ?_⟩
  · exact (hstandard.feasible_iff [2, 1] rfl).2 ⟨[1, 2, 1, 2], rfl, hpoint⟩
  · exact hstandard.slacks_unique [2, 1] s [1, 2, 1, 2] rfl hs hpoint.toSatisfies
  · rw [hdual.objectiveAt_eq [2, 1] [1, 2, 1, 2] rfl]
    decide +kernel
  · exact ((hprepared _ hturned).2.2 [1, 2]).1.2 hboth

end Problem

end LinearProgram
