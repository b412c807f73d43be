import LinearProgram.Proofs.Solver.Transition
import LinearProgram.Solver.Move

/-!
# The solver in place does the same

What is done to a solver in place, with its stage taken out and put back, is one step of it; a
failure leaves no other trace than its record.  So a solve in place ends where a run ends, and its
answer is the outcome there.

* `advanceFrom_eq`    a transition in place, with nothing lost where it fails;
* `move_eq`           a move is a step;
* `step_eq_of_failed`   what a failing step leaves;
* `solve_eq_run`, `solve_of_run`   a solve is a run.
-/

namespace LinearProgram

namespace Solver

variable {α : Type} [Scalar α]

/-! ### transitions in place -/

/-- an outcome with its stage apart; a failure leaves the solver and the stage that it began with -/
def outcomeInPlace (s : Solver α) :
    Except (Failure α) (Solver α × List (Event α)) → Solver α × Stage α × Except (Failure α) Unit
  | .ok (next, _) => (next.emptied, next.stage, .ok ())
  | .error e => (s.emptied, s.stage, .error e)

theorem buildInPlace_eq (s : Solver α) : s.buildInPlace =
    match s.buildTableau with
    | .ok t => ({ s with optimal := s.method.isOptimal s.tolerance t.toTableau }, .ok t)
    | .error e => (s, .error e) := by
  rw [buildInPlace, buildTableau]
  cases s.method.checkStart s.tolerance s.problem with
  | error e => rfl
  | ok _ =>
    cases s.problem.startingBasis with
    | error e => rfl
    | ok basis =>
      dsimp only
      cases s.problem.initialTableau basis <;> rfl

theorem iterateInPlace_eq {s : Solver α} {t : BasicTableau α} {iterated : Bool}
    (h : s.stage = .pivoting t iterated) :
    ((s.emptied.iterateInPlace t).1,
      Stage.pivoting (s.emptied.iterateInPlace t).2.1
        (iterated || (s.emptied.iterateInPlace t).2.2.isOk),
      (s.emptied.iterateInPlace t).2.2) = s.outcomeInPlace (s.iterate t) := by
  -- neither the limit nor the search looks at the stage
  have hlimit : s.emptied.limitReached = s.limitReached := rfl
  have hselect : s.emptied.method.selectPivot s.emptied.tolerance t.toTableau =
    s.method.selectPivot s.tolerance t.toTableau := rfl
  rw [iterateInPlace, iterate, hlimit, hselect]
  cases s.limitReached with
  | some limit => simp [outcomeInPlace, h, Except.isOk, Except.toBool]
  | none =>
    cases s.method.selectPivot s.tolerance t.toTableau with
    | error e => simp [outcomeInPlace, h, Except.isOk, Except.toBool]
    | ok place => cases place <;> simp [outcomeInPlace, emptied, Except.isOk, Except.toBool]

/-- A transition in place does what the transition does.  If it fails, it hands back the stage that
it got, and has written nothing. -/
theorem advanceFrom_eq (s : Solver α) :
    s.emptied.advanceFrom s.stage = s.outcomeInPlace s.advance := by
  cases hstage : s.stage with
  | initial =>
    rw [advance, hstage]
    rfl
  | transformed =>
    have hbuild : s.emptied.buildTableau = s.buildTableau := rfl
    rw [advance, hstage, advanceFrom, buildInPlace_eq, hbuild]
    cases s.buildTableau with
    | error e => rw [outcomeInPlace, hstage]
    | ok t => rfl
  | pivoting t iterated =>
    have hoptimal : s.emptied.optimal = s.optimal := rfl
    rw [advance, hstage, advanceFrom, hoptimal]
    by_cases hopt : s.optimal
    · simp only [if_pos hopt]
      rfl
    · simp only [if_neg hopt]
      exact iterateInPlace_eq hstage
  | complete t =>
    rw [advance, hstage, advanceFrom, outcomeInPlace, hstage]

/-! ### moves and steps -/

/-- a transition does not touch the record of the failure -/
theorem failure_of_advance {s next : Solver α} {events : List (Event α)}
    (h : s.advance = .ok (next, events)) : next.failure = s.failure :=
  (works_of_advance h).failure_eq

theorem step_fst {s : Solver α} (hnone : s.failure = none) : s.step.1 =
    match s.advance with
    | .ok (next, _) => next
    | .error e => { s with failure := some e } := by
  rw [step, hnone, Option.isSome_none, if_neg Bool.false_ne_true]
  cases s.advance with
  | error e => rfl
  | ok result =>
    dsimp only
    split <;> rfl

/-- where a solve stands: at a step, or stopped by a failure -/
def standing (s : Solver α) : Except (Failure α) Step :=
  match s.failure with
  | some e => .error e
  | none => .ok s.currentStep

omit [Scalar α] in
theorem standing_eq_error_iff {s : Solver α} {e : Failure α} :
    s.standing = .error e ↔ s.failure = some e := by
  rw [standing]
  cases s.failure <;> simp

theorem move_eq (s : Solver α) : s.move = (s.step.1, s.step.1.standing) := by
  rw [move, standing]
  cases hfail : s.failure with
  | some e =>
    rw [step_of_failure (by rw [hfail]; rfl)]
    simp only [hfail]
  | none =>
    rw [step_fst hfail, advanceFrom_eq]
    cases hadvance : s.advance with
    | error e => rfl
    | ok result =>
      have hnone := (failure_of_advance hadvance).trans hfail
      simp only [hnone]
      rfl

/-- a step that fails leaves its record, and all else as it was -/
theorem step_eq_of_failed {s : Solver α} {e : Failure α} (hnone : s.failure = none)
    (h : s.step.1.failure = some e) : s.step.1 = { s with failure := some e } := by
  rw [step_fst hnone] at h ⊢
  cases hadvance : s.advance with
  | error e' =>
    rw [hadvance] at h
    cases h
    rfl
  | ok result =>
    rw [hadvance] at h
    have hnext := (failure_of_advance hadvance).trans hnone
    exact absurd (hnext.symm.trans h) nofun

/-! ### runs and solves -/

theorem not_settled_iff {s : Solver α} :
    s.settled = false ↔ s.failure = none ∧ s.solution? = none := by
  refine ⟨?_, ?_⟩
  · intro h
    rw [settled, Bool.or_eq_false_iff, Option.isSome_eq_false_iff, Option.isNone_iff_eq_none] at h
    refine ⟨h.1, ?_⟩
    rw [solution?]
    cases hstage : s.stage with
    | complete t => simp [currentStep, hstage, Stage.step] at h
    | _ => rfl
  · intro h
    refine not_settled (by rw [h.1]; exact Bool.false_ne_true) fun t ht => ?_
    rw [solution?, ht] at h
    cases h.2

theorem result_eq_none_iff {s : Solver α} : s.result? = none ↔ s.settled = false := by
  rw [not_settled_iff, result?]
  cases s.solution? with
  | some solution => simp
  | none => simp

theorem result_of_solution {s : Solver α} {solution : Solution α}
    (h : s.solution? = some solution) : s.result? = some (.ok solution) := by
  rw [result?, h]

theorem result_of_failure {s : Solver α} {e : Failure α} (hsolution : s.solution? = none)
    (h : s.failure = some e) : s.result? = some (.error e) := by
  rw [result?, hsolution, h]
  rfl

theorem failure_of_result {s : Solver α} {e : Failure α} (h : s.result? = some (.error e)) :
    s.failure = some e := by
  rw [result?] at h
  split at h
  · cases h
  · obtain ⟨e', he, heq⟩ := Option.map_eq_some_iff.1 h
    cases heq
    exact he

/-- a settled solve answers again -/
theorem solve_of_result {s : Solver α} {r : Except (Failure α) (Solution α)}
    (h : s.result? = some r) (n : Nat) : s.solve (n + 1) = (s, some r) := by
  rw [result?] at h
  rw [solve]
  cases hsolution : s.solution? with
  | some solution =>
    rw [hsolution] at h
    exact congrArg _ h
  | none =>
    rw [hsolution] at h
    obtain ⟨e, he, rfl⟩ := Option.map_eq_some_iff.1 h
    rw [move, he]

theorem solve_of_not_settled {s : Solver α} (h : s.settled = false) (n : Nat) : s.solve (n + 1) =
    match s.step.1.failure with
    | some e => (s.step.1, some (.error e))
    | none => s.step.1.solve n := by
  rw [solve, (not_settled_iff.1 h).2, move_eq, standing]
  cases s.step.1.failure <;> rfl

theorem result_of_failed {s : Solver α} {e : Failure α} (h : s.settled = false)
    (he : s.step.1.failure = some e) : s.step.1.result? = some (.error e) := by
  obtain ⟨hnone, hsolution⟩ := not_settled_iff.1 h
  have hstep := step_eq_of_failed hnone he
  have hsame : s.step.1.solution? = s.solution? := by
    rw [hstep]
    rfl
  exact result_of_failure (hsame.trans hsolution) he

theorem settled_of_result {s : Solver α} {r : Except (Failure α) (Solution α)}
    (h : s.result? = some r) : s.settled := by
  rw [← Bool.not_eq_false, ← result_eq_none_iff, h]
  exact nofun

theorem run_of_not_settled {s : Solver α} (h : s.settled = false) (n : Nat) :
    (s.run (n + 1)).1 = (s.step.1.run n).1 := by
  rw [run, if_neg (Bool.eq_false_iff.1 h)]

/-- A solve in so many rounds ends where a run of so many steps ends, and what it answers is the
outcome there. -/
theorem solve_eq_run (s : Solver α) (n : Nat) : (s.solve n).1 = (s.run n).1 ∧
    ∀ r, (s.solve n).2 = some r → (s.run n).1.result? = some r := by
  induction n generalizing s with
  | zero => exact ⟨rfl, nofun⟩
  | succ n ih =>
    cases hresult : s.result? with
    | some r =>
      rw [solve_of_result hresult, run_of_settled (settled_of_result hresult)]
      exact ⟨rfl, fun _ hr => hresult.trans hr⟩
    | none =>
      have hsettled := result_eq_none_iff.1 hresult
      rw [solve_of_not_settled hsettled, run_of_not_settled hsettled]
      cases hfail : s.step.1.failure with
      | none => exact ih s.step.1
      | some e =>
        have hstop := result_of_failed hsettled hfail
        rw [run_of_settled (settled_of_result hstop)]
        exact ⟨rfl, fun _ hr => hstop.trans hr⟩

/-- an outcome is answered at the latest one round after it was reached -/
theorem solve_of_run {s : Solver α} {n : Nat} {r : Except (Failure α) (Solution α)}
    (h : (s.run n).1.result? = some r) : (s.solve (n + 1)).2 = some r := by
  induction n generalizing s with
  | zero => exact congrArg Prod.snd (solve_of_result (s := s) h 0)
  | succ n ih =>
    cases hresult : s.result? with
    | some r' =>
      rw [run_of_settled (settled_of_result hresult), hresult] at h
      rw [solve_of_result hresult, h]
    | none =>
      have hsettled := result_eq_none_iff.1 hresult
      rw [run_of_not_settled hsettled] at h
      rw [solve_of_not_settled hsettled]
      cases hfail : s.step.1.failure with
      | none => exact ih h
      | some e =>
        -- the round that fails is the one that answers
        have hstop := result_of_failed hsettled hfail
        rw [run_of_settled (settled_of_result hstop), hstop] at h
        exact h

end Solver

end LinearProgram
