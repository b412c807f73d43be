import LinearProgram.Proofs.Double.Total
import LinearProgram.Proofs.Problem.Spelling
import LinearProgram.Proofs.Solver.SameForm

/-!
# Inequalities written the other way in doubles

A double negated twice is the same double, so that the forms that turn all inequalities one way do
not depend on how these are written.  The standard form of the primal method looks at the sign of
the right side instead.  A zero has no sign to look at: written with either relation the row stays
as it is.

* `spelling_immaterial`   the forms of a problem, and its solves.
-/

namespace LinearProgram

namespace Problem

/-- Some inequalities of a problem are written the other way.  This changes nothing about the form
of the dual method nor about its solves, and nothing about the problem prepared for its dual and
the dual, or about their refusal.  It changes nothing about the standard form and about any
solve, if the right sides of these rows are numbers other than zero. -/
theorem spelling_immaterial {p : Problem Float} {chosen : Nat → Bool}
    (hchosen : ∀ i c, p.constraints[i]? = some c → chosen i → c.relation ≠ .equal) :
    (p.respelled chosen).dualStandardForm = p.dualStandardForm ∧
    (p.respelled chosen).prepared = p.prepared ∧ (p.respelled chosen).dual = p.dual ∧
    Solver.SolvedAlike .dual p (p.respelled chosen) ∧
    ((∀ i c, p.constraints[i]? = some c → chosen i → ¬ c.rhs == 0 ∧ c.rhs.isNaN = false) →
      (p.respelled chosen).standardForm = p.standardForm ∧
      ∀ m, Solver.SolvedAlike m p (p.respelled chosen)) := by
  have hneg := Double.neg_neg
  have hdual := dualStandardForm_respelled hneg hchosen
  have hdualSolves : Solver.SolvedAlike .dual p (p.respelled chosen) :=
    Solver.solvedAlike hdual rfl
  refine ⟨hdual, prepared_respelled hneg hchosen, dual_respelled hneg hchosen, hdualSolves, ?_⟩
  intro hrhs
  have hstandard : (p.respelled chosen).standardForm = p.standardForm := by
    refine equalities_respelled fun i c hget hi => Constraint.withNonnegRhs_negated hneg ?_
    obtain ⟨hzero, hnumber⟩ := hrhs i c hget hi
    exact Double.neg_nonneg_iff_not hnumber hzero
  refine ⟨hstandard, fun m => ?_⟩
  cases m with
  | primal => exact Solver.solvedAlike hstandard rfl
  | dual => exact hdualSolves

/-- the greatest `3x + y` with an inequality of either relation, and an equality in between -/
def eitherWay : Problem Float :=
  ⟨[3, 1, 0], .maximize, [⟨[1, 1, 0], .lessEqual, 4⟩, ⟨[1, 0, 1], .equal, 5⟩,
    ⟨[-1, 1, 0], .greaterEqual, -2⟩], by decide⟩

theorem spelling_immaterial_eitherWay :
    (eitherWay.respelled (· != 1)).constraints = [⟨[-1, -1, -0], .greaterEqual, -4⟩,
      ⟨[1, 0, 1], .equal, 5⟩, ⟨[1, -1, -0], .lessEqual, 2⟩] ∧
    (eitherWay.respelled (· != 1)).dual = .error (.equalityInDual 1) ∧
    (eitherWay.respelled (· != 1)).standardForm = eitherWay.standardForm ∧
    ((Solver.start .primal (eitherWay.respelled (· != 1)) 0).calls [.run 6]).1.solution? =
      some ⟨[3, 1, 2, 0, 0], 10⟩ := by
  -- the rows 0 and 2 are the ones that are negated
  have hrows : ∀ i c, eitherWay.constraints[i]? = some c → i != 1 →
      c.relation ≠ .equal ∧ ¬ c.rhs == 0 ∧ c.rhs.isNaN = false := by
    intro i c hget hi
    match i, hget, hi with
    | 0, rfl, _ => decide +kernel
    | 1, _, hi => cases hi
    | 2, rfl, _ => decide +kernel
    | _ + 3, hget, _ => cases hget
  obtain ⟨-, -, hdual, -, hstandard⟩ := spelling_immaterial fun i c hget hi => (hrows i c hget hi).1
  obtain ⟨hform, hsolves⟩ := hstandard fun i c hget hi => (hrows i c hget hi).2
  have hstarted : ((Solver.start .primal eitherWay 0).calls [.run 6]).1.currentStep ≠ .init := by
    decide +kernel
  refine ⟨by decide +kernel, hdual.trans (by decide +kernel), hform, ?_⟩
  rw [(hsolves .primal).solver_eq 0 [.run 6] hstarted]
  decide +kernel

/-- `x <= 0`, which as `-x >= 0` gets another slack -/
def atMostZero : Problem Float := ⟨[1], .maximize, [⟨[1], .lessEqual, 0⟩], by decide⟩

example : (atMostZero.respelled fun _ => true).standardForm ≠ atMostZero.standardForm := by
  decide +kernel

end Problem

end LinearProgram
