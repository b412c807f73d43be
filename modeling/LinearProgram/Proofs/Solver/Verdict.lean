import LinearProgram.Proofs.Solver.Failing
import LinearProgram.Proofs.Solver.PrimalOptimum
import LinearProgram.Proofs.Tableau.Certificate

/-!
# The verdicts of both methods are right

A solve at tolerance zero that stops with a verdict still holds the tableau in which it was found.
The tableau says of every point what the problem says, so what it proves is true of the problem
as given: the primal method's column of a problem without bound, the dual method's row of a
problem without a feasible point.

* `exists_verdict`       the tableau behind a verdict;
* `unbounded_verdict`    the primal method;
* `infeasible_verdict`   the dual method.
-/

namespace LinearProgram

namespace Solver

/-- a recorded verdict is what the search for a pivot finds in the tableau -/
def VerdictShown (s : Solver Rat) : Prop :=
  ∀ e, s.failure = some e → e.IsVerdict →
    ∃ t, s.tableau? = some t ∧ s.method.selectPivot 0 t.toTableau = .error e

variable {m : Method} {p : Problem Rat} {cs : List (Call Rat)}

theorem VerdictShown.step {s : Solver Rat} (hs : s.VerdictShown) (htested : Tested 0 s) :
    s.step.1.VerdictShown := by
  intro e he hverdict
  by_cases hfail : s.failure.isSome
  · -- a solver that has failed does not change
    rw [step_of_failure hfail] at he ⊢
    exact hs e he hverdict
  · have hstep := transition_step s
    obtain hold | ⟨t, ht, hselect⟩ := hstep.verdict_cases he hverdict
    · exact absurd (by rw [hold]; rfl) hfail
    · rw [htested.tolerance_eq] at hselect
      exact ⟨t, ht, by rw [hstep.method_eq]; exact hselect⟩

/-- behind a verdict stands a tableau that represents the transformed problem and in which the
search fails -/
theorem exists_verdict (hcs : KeepTolerance 0 cs) {e : Failure Rat}
    (h : ((start m p 0).calls cs).1.failure = some e) (hverdict : e.IsVerdict) :
    ∃ t, ((start m p 0).calls cs).1.tableau? = some t ∧ t.Represents (m.transform p) ∧
      m.selectPivot 0 t.toTableau = .error e := by
  have hs : Faithful m p ((start m p 0).calls cs).1 := faithful_calls le_rfl hcs
  have hshown : ((start m p 0).calls cs).1.VerdictShown :=
    calls_kept (m := m) (p := p) le_rfl hcs (fun s _ htested hs => hs.step htested)
      (fun _ _ hs => hs) nofun
  obtain ⟨t, ht, hselect⟩ := hshown e h hverdict
  rw [hs.method_eq] at hselect
  exact ⟨t, ht, hs.represents t ht, hselect⟩

/-- The primal method at tolerance zero calls a problem unbounded only if it is: after any calls,
feasible points of the problem as given have objectives as good as one likes. -/
theorem unbounded_verdict (p : Problem Rat) {cs : List (Call Rat)} (hcs : KeepTolerance 0 cs)
    {column : Nat} (h : ((start .primal p 0).calls cs).1.failure = some (.unbounded column)) :
    p.Unbounded := by
  obtain ⟨t, ht, hrep, hselect⟩ := exists_verdict hcs h trivial
  obtain ⟨c, -, hentering, hleaving⟩ := Method.selectPivot_primal_error hselect
  have hcost := Tableau.enteringColumn_below hentering
  rw [neg_zero] at hcost
  have hform : p.standardForm.Unbounded :=
    hrep.unbounded_of_column (rhs_nonneg_calls hcs t ht) (Tableau.enteringColumn_lt hentering)
      (fun _ hi => Tableau.le_of_leavingRow_eq_none hleaving hi) hcost
  exact Problem.unbounded_of_equalities Problem.withNonnegRhs_turned hform

/-- the least `z - 2x - y` with `x - y <= 2`, a right side below zero and a surplus; `z` is basic
from the start -/
def openSlope : Problem Rat :=
  ⟨[-2, -1, 1], .minimize, [⟨[1, -1, 0], .lessEqual, 2⟩, ⟨[-1, 2, 0], .greaterEqual, -6⟩,
    ⟨[1, 0, 1], .greaterEqual, 1⟩], by decide⟩

/-- two pivots, the first under a limit that the second does not have -/
theorem unbounded_verdict_openSlope :
    KeepTolerance 0 [.step, .setMaxIterations (some 1), .run 2, .setMaxIterations none, .run 9] ∧
      ((start .primal openSlope 0).calls
        [.step, .setMaxIterations (some 1), .run 2, .setMaxIterations none, .run 9]).1.failure =
        some (.unbounded 1) ∧ openSlope.Unbounded := by
  have hcs : KeepTolerance 0
      [.step, .setMaxIterations (some 1), .run 2, .setMaxIterations none, .run 9] := by
    intro t ht
    simp at ht
  have hfailure : ((start .primal openSlope 0).calls
      [.step, .setMaxIterations (some 1), .run 2, .setMaxIterations none, .run 9]).1.failure =
      some (.unbounded 1) := by decide +kernel
  exact ⟨hcs, hfailure, unbounded_verdict openSlope hcs hfailure⟩

/-- The dual method at tolerance zero calls a problem infeasible only if it is: after any calls,
and whatever columns the solve started from, the problem as given has no feasible point. -/
theorem infeasible_verdict (p : Problem Rat) {cs : List (Call Rat)} (hcs : KeepTolerance 0 cs)
    {row : Nat} (h : ((start .dual p 0).calls cs).1.failure = some (.infeasible row)) :
    ¬ ∃ x, p.Feasible x := by
  obtain ⟨t, ht, hrep, hselect⟩ := exists_verdict hcs h trivial
  obtain ⟨r, -, hleaving, hentering⟩ := Method.selectPivot_dual_error hselect
  have hr := Tableau.dualLeavingRow_lt hleaving
  have hrhs := Tableau.dualLeavingRow_below hleaving
  rw [neg_zero] at hrhs
  have hentries : ∀ j < t.variableCount, 0 ≤ t.cell r j := by
    intro j hj
    have hge := Tableau.ge_of_dualEnteringColumn_eq_none hr.le hentering hj
    rwa [neg_zero] at hge
  rintro ⟨x, hx⟩
  have hslack : p.dualStandardForm.Feasible (p.withSlackValues x) :=
    Problem.feasible_withSlackValues Problem.asLessEqual_turned hx
  exact hrep.infeasible_of_row hr hentries hrhs _ hslack

/-- `x + y` is at most `2`, `x` at least `1 + y`, and `x + 2y` at least `6`; the solve starts with
`z` in the basis, for the equality -/
def wideGap : Problem Rat :=
  ⟨[2, 1, 0], .minimize, [⟨[1, 1, 0], .lessEqual, 2⟩, ⟨[1, -1, -1], .equal, 1⟩,
    ⟨[1, 2, 0], .greaterEqual, 6⟩], by decide⟩

theorem infeasible_verdict_wideGap :
    KeepTolerance 0 [.run 4, .setTolerance 0, .run 9] ∧
      ((start .dual wideGap 0).calls [.run 4, .setTolerance 0, .run 9]).1.failure =
        some (.infeasible 0) ∧ ¬ ∃ x, wideGap.Feasible x := by
  have hcs : KeepTolerance 0 [.run 4, .setTolerance 0, .run 9] := by
    intro t ht
    simpa using ht
  have hfailure : ((start .dual wideGap 0).calls
      [.run 4, .setTolerance 0, .run 9]).1.failure = some (.infeasible 0) := by decide +kernel
  exact ⟨hcs, hfailure, infeasible_verdict wideGap hcs hfailure⟩

end Solver

end LinearProgram
