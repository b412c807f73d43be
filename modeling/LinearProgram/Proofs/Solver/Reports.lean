import LinearProgram.Proofs.Solver.InPlace

/-!
# What a step reports

A transition reports its own work first: the columns added, the first tableau, or a pivot and the
tableau that it leads to.  The step that was reached is reported after that, and only if it is
another one.  A failing step reports the failure and nothing else, and a settled solver is silent.

* `moved`                     the record of the step that was reached;
* `step_reports`              what a step reports, in full;
* `calls_reports_induction`   what each step keeps of the log so far and the solver, all calls keep;
* `solveEvents_eq`            a solve reports what a run of as many steps does.
-/

namespace LinearProgram

namespace Solver

variable {α : Type} [Scalar α]

/-! ### one step -/

omit [Scalar α] in
/-- the record of the step that was reached, if it is another one -/
def moved (m : Method) (before after : Step) : List (Event α) :=
  if after = before then [] else [.stepped m before after]

/-- A failed solver is silent.  Any other step reports the failure that bars it, or its work and
then the step that it reaches. -/
theorem step_reports (s : Solver α) :
    (s.failure.isSome ∧ s.step = (s, [])) ∨
    (s.failure = none ∧ ∃ e, s.step =
      ({ s with failure := some e }, [.failed s.method s.currentStep e])) ∨
    (s.failure = none ∧ ∃ next events, Works s events next ∧ s.step =
      (next, events ++ moved s.method s.currentStep next.currentStep)) := by
  cases hfail : s.failure with
  | some e =>
    have hsome : s.failure.isSome := by rw [hfail]; rfl
    exact Or.inl ⟨rfl, step_of_failure hsome⟩
  | none =>
    rw [step, hfail, Option.isSome_none, if_neg Bool.false_ne_true]
    cases hadvance : s.advance with
    | error e => exact Or.inr (Or.inl ⟨rfl, e, rfl⟩)
    | ok result =>
      obtain ⟨next, events⟩ := result
      refine Or.inr (Or.inr ⟨rfl, next, events, works_of_advance hadvance, ?_⟩)
      unfold moved
      dsimp only
      split
      · rw [List.append_nil]
      · rfl

/-! ### runs and calls -/

/-- what each step keeps of the log and the solver, a run keeps -/
theorem run_reports_induction {motive : List (Event α) → Solver α → Prop}
    (hstep : ∀ log s, motive log s → motive (log ++ s.step.2) s.step.1) {log : List (Event α)}
    {s : Solver α} (h : motive log s) (n : Nat) : motive (log ++ (s.run n).2) (s.run n).1 := by
  induction n generalizing log s with
  | zero =>
    rw [run, List.append_nil]
    exact h
  | succ n ih =>
    rw [run]
    split
    · rw [List.append_nil]
      exact h
    · have hnext := ih (hstep log s h)
      rw [List.append_assoc] at hnext
      exact hnext

/-- What holds of the empty log at the start, and is kept by each step and each change of a setting,
holds of the log of all calls. -/
theorem calls_reports_induction {motive : List (Event α) → Solver α → Prop}
    (hstep : ∀ log s, motive log s → motive (log ++ s.step.2) s.step.1)
    (htol : ∀ log s t, motive log s → motive log (s.withTolerance t))
    (hlimit : ∀ log s l, motive log s → motive log (s.withMaxIterations l)) {s : Solver α}
    (h : motive [] s) (cs : List (Call α)) : motive (s.calls cs).2 (s.calls cs).1 := by
  suffices hlog : ∀ log, motive log s → motive (log ++ (s.calls cs).2) (s.calls cs).1 from hlog [] h
  clear h
  induction cs generalizing s with
  | nil =>
    intro log hs
    rw [calls, List.append_nil]
    exact hs
  | cons c cs ih =>
    intro log hs
    rw [calls_cons, ← List.append_assoc]
    apply ih
    cases c with
    | step => exact hstep log s hs
    | run n => exact run_reports_induction hstep hs n
    | setTolerance t =>
      rw [call, List.append_nil]
      exact htol log s t hs
    | setMaxIterations l =>
      rw [call, List.append_nil]
      exact hlimit log s l hs

/-! ### solves -/

theorem run_reports_of_not_settled {s : Solver α} (h : s.settled = false) (n : Nat) :
    (s.run (n + 1)).2 = s.step.2 ++ (s.step.1.run n).2 := by
  rw [run, if_neg (Bool.eq_false_iff.1 h)]

/-- a solve reports what a run of as many steps does -/
theorem solveEvents_eq (s : Solver α) (n : Nat) : s.solveEvents n = (s.run n).2 := by
  induction n generalizing s with
  | zero => rfl
  | succ n ih =>
    rw [solveEvents]
    cases hsolution : s.solution? with
    | some solution =>
      rw [run_of_settled (settled_of_result (result_of_solution hsolution))]
    | none =>
      dsimp only
      rw [move_eq, standing]
      cases hfail : s.failure with
      | some e =>
        have hsome : s.failure.isSome := by rw [hfail]; rfl
        rw [step_of_failure hsome, hfail,
          run_of_settled (settled_of_result (result_of_failure hsolution hfail))]
      | none =>
        have hsettled := not_settled_iff.2 ⟨hfail, hsolution⟩
        rw [run_reports_of_not_settled hsettled]
        cases hnext : s.step.1.failure with
        | none =>
          dsimp only
          rw [ih]
        | some e =>
          -- the step that fails is the last one of the run as well
          have hstop := settled_of_result (result_of_failed hsettled hnext)
          rw [run_of_settled hstop, List.append_nil]

end Solver

end LinearProgram
