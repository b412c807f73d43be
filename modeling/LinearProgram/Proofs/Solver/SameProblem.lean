import LinearProgram.Proofs.Solver.CanonicalRun
import LinearProgram.Proofs.Tableau.Represents

/-!
# Every tableau is the problem in another basis

Over the rationals the tableaux of a solve all have the solutions and the objective of the problem
that the solve works on, whatever is done to the solver on the way: the only guard is that a
pivot is beyond a tolerance that is not negative, so not zero.

* `Solver.Faithful`            what every call keeps;
* `same_problem_after_calls`   what can be read off any tableau that a solver reaches.
-/

namespace LinearProgram

namespace Solver

/-- the problem that a solve of `p` holds at a stage -/
def problemAt (m : Method) (p : Problem Rat) : Stage Rat → Problem Rat
  | .initial => p
  | _ => m.transform p

/-- the solver works on `p` by the method, and its tableau stands for the transformed problem -/
structure Faithful (m : Method) (p : Problem Rat) (s : Solver Rat) : Prop where
  method_eq : s.method = m
  problem_eq : s.problem = problemAt m p s.stage
  tolerance_nonneg : 0 ≤ s.tolerance
  represents : ∀ t, s.tableau? = some t → t.Represents (m.transform p)

variable {m : Method} {p : Problem Rat}

theorem faithful_start (m : Method) (p : Problem Rat) {tolerance : Rat} (h : 0 ≤ tolerance) :
    Faithful m p (start m p tolerance) :=
  ⟨rfl, rfl, h, fun _ ht => by cases ht⟩

theorem Transition.problem_at {s s' : Solver Rat} (h : Transition s s') (hmethod : s.method = m)
    (hproblem : s.problem = problemAt m p s.stage) : s'.problem = problemAt m p s'.stage := by
  cases h with
  | stay => exact hproblem
  | fail => exact hproblem
  | transform hstage =>
    rw [hstage] at hproblem
    show s.method.transform s.problem = m.transform p
    rw [hmethod, hproblem]
    rfl
  | build hstage =>
    rw [hstage] at hproblem
    exact hproblem
  | finish hstage =>
    rw [hstage] at hproblem
    exact hproblem
  | exhaust hstage =>
    rw [hstage] at hproblem
    exact hproblem
  | pivot hstage =>
    rw [hstage] at hproblem
    exact hproblem

theorem Faithful.problem_of_transformed {s : Solver Rat} (hs : Faithful m p s)
    (hstage : s.stage = .transformed) : s.problem = m.transform p := by
  rw [hs.problem_eq, hstage]
  rfl

theorem Faithful.transition {s s' : Solver Rat} (h : Transition s s') (hs : Faithful m p s) :
    Faithful m p s' := by
  refine ⟨h.method_eq.trans hs.method_eq, h.problem_at hs.method_eq hs.problem_eq,
    h.tolerance_eq ▸ hs.tolerance_nonneg, fun u hu => ?_⟩
  obtain hold | ⟨basis, hstage, -, hbasis, rfl⟩ | ⟨t, row, column, hold, hsome, -, rfl⟩ :=
    h.tableau_cases hu
  · exact hs.represents u hold
  · have hproblem := hs.problem_of_transformed hstage
    rw [hproblem] at hbasis ⊢
    exact Problem.represents_pricedOut (m.relation_of_mem_transform p) hbasis
  · obtain ⟨hrow, hcolumn⟩ := Method.selectPivot_lt hsome
    exact (hs.represents t hold).pivot hrow hcolumn
      (Method.pivot_ne_zero hsome hs.tolerance_nonneg)

theorem Faithful.calls {s : Solver Rat} (hs : Faithful m p s) {cs : List (Call Rat)}
    (hcs : ∀ t, .setTolerance t ∈ cs → 0 ≤ t) : Faithful m p (s.calls cs).1 := by
  refine calls_transition (fun _ _ h hs => hs.transition h) ?_ ?_ hs
  · intro s t ht hs
    exact ⟨hs.method_eq, hs.problem_eq, hcs t ht, hs.represents⟩
  · intro s l hs
    exact ⟨hs.method_eq, hs.problem_eq, hs.tolerance_nonneg, hs.represents⟩

theorem Faithful.problem_of_tableau {s : Solver Rat} (hs : Faithful m p s) {t : BasicTableau Rat}
    (ht : s.tableau? = some t) : s.problem = m.transform p := by
  rw [hs.problem_eq]
  rw [tableau?] at ht
  cases hstage : s.stage with
  | initial => rw [hstage] at ht; cases ht
  | transformed => rfl
  | pivoting => rfl
  | complete => rfl

/-- A tableau reached by any calls, with any limits and any tolerances that are not negative:
its basis is canonical, its equations and its objective are those of the problem the solver
holds, and its basic solution solves that problem with the objective that the tableau shows. -/
theorem same_problem_after_calls (m : Method) (p : Problem Rat) {tolerance : Rat}
    (htol : 0 ≤ tolerance) (cs : List (Call Rat)) (hcs : ∀ t, .setTolerance t ∈ cs → 0 ≤ t)
    {t : BasicTableau Rat} (ht : ((start m p tolerance).calls cs).1.tableau? = some t) :
    let q := ((start m p tolerance).calls cs).1.problem
    q = m.transform p ∧ t.Canonical ∧ (∀ x, t.Satisfies x ↔ q.Satisfies x) ∧
      (∀ x, q.Satisfies x → q.objectiveAt x = t.objectiveAt x) ∧
      q.Satisfies t.solution.values ∧ q.objectiveAt t.solution.values = t.objectiveValue := by
  intro q
  have hs := (faithful_start m p htol).calls hcs
  have hq : q = m.transform p := hs.problem_of_tableau ht
  have hrep := hs.represents t ht
  rw [← hq] at hrep
  exact ⟨hq, hrep.canonical, hrep.satisfies_iff, hrep.objective_eq, hrep.satisfies_solution,
    hrep.objectiveAt_solution⟩

/-- the least `3x + 2y` with `2x + y >= 4` and `x + 3y >= 3` -/
def twoCovers : Problem Rat :=
  ⟨[3, 2], .minimize, [⟨[2, 1], .greaterEqual, 4⟩, ⟨[1, 3], .greaterEqual, 3⟩], by decide⟩

/-- two dual pivots, with the settings changed between them -/
def interruptedCalls : List (Call Rat) :=
  [.run 2, .setTolerance (1 / 2), .step, .setMaxIterations (some 7), .setTolerance 0, .run 9]

theorem same_problem_after_interruptedCalls :
    (∀ t, .setTolerance t ∈ interruptedCalls → 0 ≤ t) ∧
      ((start .dual twoCovers 1).calls interruptedCalls).1.iterations = 2 ∧
      ∃ t, ((start .dual twoCovers 1).calls interruptedCalls).1.tableau? = some t ∧
        t.Canonical ∧
        twoCovers.dualStandardForm.objectiveAt t.solution.values = t.objectiveValue := by
  have htols : ∀ t, .setTolerance t ∈ interruptedCalls → 0 ≤ t := by
    intro t ht
    simp only [interruptedCalls, List.mem_cons, Call.setTolerance.injEq, reduceCtorEq,
      List.not_mem_nil, or_false, false_or] at ht
    rcases ht with rfl | rfl <;> decide +kernel
  have hsome : ((start .dual twoCovers 1).calls interruptedCalls).1.tableau?.isSome := by
    decide +kernel
  obtain ⟨t, ht⟩ := Option.isSome_iff_exists.1 hsome
  obtain ⟨hq, hcanonical, -, -, -, hobjective⟩ :=
    same_problem_after_calls .dual twoCovers (by decide) interruptedCalls htols ht
  rw [hq] at hobjective
  exact ⟨htols, by decide +kernel, t, ht, hcanonical, hobjective⟩

end Solver

end LinearProgram
