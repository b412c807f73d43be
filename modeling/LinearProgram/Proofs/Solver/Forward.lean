import LinearProgram.Proofs.Solver.InPlace
import LinearProgram.Solver.Call

/-!
# Steps go forward and failures are final

A move either takes the solve to one of the steps that may follow, or records a failure and leaves
everything else alone.  Once there is a failure, or a solution, only the settings can change.

* `Transition.currentStep_cases`   the steps that a transition may lead to;
* `calls_of_settled`               what calls do to a settled solver;
* `forward_and_final`              all of this for every reachable solver.
-/

namespace LinearProgram

/-- the steps that may come next -/
def Step.successors : Step → List Step
  | init => [transform]
  | transform => [buildTableau]
  | buildTableau => [iteration, complete]
  | iteration => [iteration, complete]
  | complete => [complete]

theorem Step.rank_le_of_mem_successors {a b : Step} (h : b ∈ a.successors) : a.rank ≤ b.rank := by
  revert h
  cases a <;> cases b <;> decide

namespace Solver

variable {α : Type} [Scalar α]

/-! ### one step -/

omit [Scalar α] in
theorem exists_complete_of_currentStep {s : Solver α} (h : s.currentStep = .complete) :
    ∃ t, s.stage = .complete t := by
  rw [currentStep] at h
  cases hstage : s.stage with
  | complete t => exact ⟨t, rfl⟩
  | pivoting t iterated =>
    rw [hstage] at h
    cases iterated <;> cases h
  | _ =>
    rw [hstage] at h
    cases h

/-- a transition leads to one of the steps that may come next, or the solver stays, settled -/
theorem Transition.currentStep_cases {s s' : Solver α} (h : Transition s s') :
    (s'.settled ∧ s'.currentStep = s.currentStep) ∨ s'.currentStep ∈ s.currentStep.successors := by
  cases h with
  | stay hsettled => exact Or.inl ⟨hsettled, rfl⟩
  | fail => exact Or.inl ⟨rfl, rfl⟩
  | transform hstage =>
    rw [currentStep, currentStep, hstage]
    exact Or.inr List.mem_cons_self
  | build hstage =>
    rw [currentStep, currentStep, hstage]
    exact Or.inr List.mem_cons_self
  | @finish t iterated hstage =>
    rw [currentStep, currentStep, hstage]
    cases iterated <;> exact Or.inr (List.mem_cons_of_mem _ List.mem_cons_self)
  | @exhaust t iterated hstage =>
    rw [currentStep, currentStep, hstage]
    cases iterated <;> exact Or.inr List.mem_cons_self
  | @pivot t iterated _ _ hstage =>
    rw [currentStep, currentStep, hstage]
    cases iterated <;> exact Or.inr List.mem_cons_self

theorem Transition.rank_le {s s' : Solver α} (h : Transition s s') :
    s.currentStep.rank ≤ s'.currentStep.rank := by
  obtain ⟨-, hsame⟩ | hnext := h.currentStep_cases
  · exact Nat.le_of_eq (congrArg Step.rank hsame.symm)
  · exact Step.rank_le_of_mem_successors hnext

theorem Transition.iterations_le {s s' : Solver α} (h : Transition s s') :
    s.iterations ≤ s'.iterations := by
  cases h with
  | pivot => exact Nat.le_succ _
  | _ => exact Nat.le_refl _

theorem step_of_settled {s : Solver α} (h : s.settled) : s.step.1 = s := by
  cases hfail : s.failure with
  | some e => rw [step_of_failure (by rw [hfail]; rfl)]
  | none =>
    rw [settled, hfail, Option.isSome_none, Bool.false_or, beq_iff_eq] at h
    obtain ⟨t, ht⟩ := exists_complete_of_currentStep h
    rw [step_fst hfail, advance, ht]

/-! ### moves -/

theorem move_ok {s : Solver α} {step : Step} (h : s.move.2 = .ok step) :
    step = s.move.1.currentStep ∧ step ∈ s.currentStep.successors := by
  rw [move_eq] at h ⊢
  simp only [standing] at h ⊢
  cases hfail : s.step.1.failure with
  | some e =>
    rw [hfail] at h
    cases h
  | none =>
    rw [hfail] at h
    cases h
    refine ⟨rfl, ?_⟩
    obtain ⟨hsettled, hsame⟩ | hnext := (transition_step s).currentStep_cases
    · -- settled without a failure, the solve is complete
      rw [settled, hfail, Option.isSome_none, Bool.false_or, beq_iff_eq] at hsettled
      rw [← hsame, hsettled]
      decide
    · exact hnext

theorem move_error {s : Solver α} {e : Failure α} (hnone : s.failure = none)
    (h : s.move.2 = .error e) : s.move.1 = { s with failure := some e } := by
  rw [move_eq] at h ⊢
  simp only [standing] at h ⊢
  cases hfail : s.step.1.failure with
  | none =>
    rw [hfail] at h
    cases h
  | some e' =>
    rw [hfail] at h
    cases h
    exact step_eq_of_failed hnone hfail

/-! ### the answers of a settled solver -/

theorem move_of_settled {s : Solver α} (h : s.settled) : s.move = (s, s.standing) := by
  rw [move_eq, step_of_settled h]

theorem answer_of_failed {s : Solver α} {e : Failure α} (h : s.failure = some e)
    (hsolution : s.solution? = none) :
    s.move = (s, .error e) ∧ ∀ n, s.solve (n + 1) = (s, some (.error e)) := by
  have hsettled : s.settled := by rw [settled, h]; rfl
  refine ⟨?_, solve_of_result ?_⟩
  · rw [move_of_settled hsettled, standing, h]
  · rw [result?, hsolution, h]
    rfl

theorem answer_of_complete {s : Solver α} {t : BasicTableau α} (h : s.stage = .complete t)
    (hnone : s.failure = none) :
    s.move = (s, .ok .complete) ∧ ∀ n, s.solve (n + 1) = (s, some (.ok t.solution)) := by
  refine ⟨?_, solve_of_result ?_⟩
  · rw [move_of_settled (settled_of_complete h), standing, hnone, currentStep, h]
    rfl
  · rw [result?, solution?, h]

/-! ### calls -/

/-- calls change nothing but the settings of a settled solver -/
theorem calls_of_settled {s : Solver α} (h : s.settled) (ds : List (Call α)) : (s.calls ds).1 =
    (s.withTolerance (s.calls ds).1.tolerance).withMaxIterations (s.calls ds).1.maxIterations := by
  refine calls_induction
    (motive := fun u => u = (s.withTolerance u.tolerance).withMaxIterations u.maxIterations)
    (fun u hu => ?_) (fun u t _ hu => ?_) (fun u l hu => ?_) rfl
  · have hsettled : u.settled := by rw [hu]; exact h
    rw [step_of_settled hsettled]
    exact hu
  · exact congrArg (·.withTolerance t) hu
  · exact congrArg (·.withMaxIterations l) hu

theorem forward_calls (s : Solver α) (ds : List (Call α)) :
    s.currentStep.rank ≤ (s.calls ds).1.currentStep.rank ∧
      s.iterations ≤ (s.calls ds).1.iterations := by
  refine calls_transition
    (motive := fun u => s.currentStep.rank ≤ u.currentStep.rank ∧ s.iterations ≤ u.iterations)
    (fun u u' hstep hu => ?_) (fun _ _ _ hu => hu) (fun _ _ hu => hu)
    ⟨Nat.le_refl _, Nat.le_refl _⟩
  exact ⟨Nat.le_trans hu.1 hstep.rank_le, Nat.le_trans hu.2 hstep.iterations_le⟩

/-- no solution and failure at once -/
theorem solution_of_failed (m : Method) (p : Problem α) (tolerance : α) (cs : List (Call α)) :
    ∀ e, ((start m p tolerance).calls cs).1.failure = some e →
      ((start m p tolerance).calls cs).1.solution? = none := by
  refine calls_induction (motive := fun u => ∀ e, u.failure = some e → u.solution? = none)
    (fun u hu e he => ?_) (fun _ _ _ hu => hu) (fun _ _ hu => hu) (fun e he => ?_)
  · cases hsettled : u.settled with
    | true =>
      rw [step_of_settled hsettled] at he ⊢
      exact hu e he
    | false =>
      obtain ⟨hnone, hsolution⟩ := not_settled_iff.1 hsettled
      rw [step_eq_of_failed hnone he]
      exact hsolution
  · cases he

/-! ### reachable solvers -/

/-- Of the solver `s` after any calls, and of `u` after any more of them.  A move of `s` that
succeeds leads to a step that may come next; steps and iterations never go back.  A move that fails
records its failure and leaves all else as it was.  From then on `u` is `s` with other settings at
most, and each move and each solve of it answers with the same failure and changes nothing.  So is
`u` once `s` is complete, and its solution is that of `s`. -/
theorem forward_and_final (m : Method) (p : Problem α) (tolerance : α) (cs ds : List (Call α)) :
    let s := ((start m p tolerance).calls cs).1
    let u := (s.calls ds).1
    (∀ step, s.move.2 = .ok step →
      step = s.move.1.currentStep ∧ step ∈ s.currentStep.successors) ∧
    (s.currentStep.rank ≤ u.currentStep.rank ∧ s.iterations ≤ u.iterations) ∧
    (∀ e, s.failure = none → s.move.2 = .error e → s.move.1 = { s with failure := some e }) ∧
    (∀ e, s.failure = some e →
      u = (s.withTolerance u.tolerance).withMaxIterations u.maxIterations ∧
      u.move = (u, .error e) ∧ ∀ n, u.solve (n + 1) = (u, some (.error e))) ∧
    (s.currentStep = .complete →
      u = (s.withTolerance u.tolerance).withMaxIterations u.maxIterations ∧
      u.move = (u, .ok .complete) ∧
      ∃ solution, s.solution? = some solution ∧ u.solution? = some solution ∧
        ∀ n, u.solve (n + 1) = (u, some (.ok solution))) := by
  intro s u
  refine ⟨fun step => move_ok, forward_calls s ds, fun e => move_error, ?_, ?_⟩
  · intro e he
    have hsettled : s.settled := by rw [settled, he]; rfl
    have hsolution : s.solution? = none := solution_of_failed m p tolerance cs e he
    have hu : u = (s.withTolerance u.tolerance).withMaxIterations u.maxIterations :=
      calls_of_settled hsettled ds
    exact ⟨hu, answer_of_failed (by rw [hu]; exact he) (by rw [hu]; exact hsolution)⟩
  · intro hcomplete
    obtain ⟨t, ht⟩ := exists_complete_of_currentStep hcomplete
    have hsolution : s.solution? = some t.solution := by rw [solution?, ht]
    have hnone : s.failure = none := by
      cases hfail : s.failure with
      | none => rfl
      | some e =>
        have hno : s.solution? = none := solution_of_failed m p tolerance cs e hfail
        rw [hsolution] at hno
        cases hno
    have hu : u = (s.withTolerance u.tolerance).withMaxIterations u.maxIterations :=
      calls_of_settled (settled_of_complete ht) ds
    obtain ⟨hmove, hsolve⟩ := answer_of_complete (s := u) (t := t) (by rw [hu]; exact ht)
      (by rw [hu]; exact hnone)
    exact ⟨hu, hmove, t.solution, hsolution, by rw [hu]; exact hsolution, hsolve⟩

/-- the greatest `3x + 2y` with `2x + 2y <= 8` and `2x <= 6`, two pivots away -/
def twoPivots : Problem Rat :=
  ⟨[3, 2], .maximize, [⟨[2, 2], .lessEqual, 8⟩, ⟨[2, 0], .lessEqual, 6⟩], by decide⟩

/-- a limit of one pivot stops the solve, and to lift it afterwards does not help; without the limit
the solution stays -/
theorem forward_and_final_twoPivots :
    (let s := ((start .primal twoPivots 0).calls [.setMaxIterations (some 1), .run 3]).1
     s.failure = none ∧ s.move.2 = .error (.iterationLimit 1) ∧
      s.move.1 = { s with failure := some (.iterationLimit 1) }) ∧
    (let s := ((start .primal twoPivots 0).calls [.setMaxIterations (some 1), .run 9]).1
     s.failure = some (.iterationLimit 1) ∧
      ∀ n, ((s.withMaxIterations none).solve (n + 1)).2 = some (.error (.iterationLimit 1))) ∧
    (let s := ((start .primal twoPivots 0).calls [.run 9]).1
     s.currentStep = .complete ∧
      ∀ n, ((s.withTolerance 1).solve (n + 1)).2 = some (.ok ⟨[3, 1, 0, 0], 11⟩)) := by
  refine ⟨?_, ?_, ?_⟩
  · intro s
    have hnone : s.failure = none := by decide +kernel
    have hstep : s.step.1.failure = some (.iterationLimit 1) := by decide +kernel
    have herror : s.move.2 = .error (.iterationLimit 1) := by
      rw [move_eq]
      simp only [standing, hstep]
    obtain ⟨-, -, hfail, -⟩ := forward_and_final .primal twoPivots 0
      [.setMaxIterations (some 1), .run 3] []
    exact ⟨hnone, herror, hfail _ hnone herror⟩
  · intro s
    have hfailure : s.failure = some (.iterationLimit 1) := by decide +kernel
    obtain ⟨-, -, -, hfinal, -⟩ := forward_and_final .primal twoPivots 0
      [.setMaxIterations (some 1), .run 9] [.setMaxIterations none]
    exact ⟨hfailure, fun n => congrArg Prod.snd ((hfinal _ hfailure).2.2 n)⟩
  · intro s
    have hstep : s.currentStep = .complete := by decide +kernel
    have hsolution : s.solution? = some ⟨[3, 1, 0, 0], 11⟩ := by decide +kernel
    obtain ⟨-, -, -, -, hkept⟩ := forward_and_final .primal twoPivots 0 [.run 9] [.setTolerance 1]
    obtain ⟨-, -, solution, hs, -, hsolve⟩ := hkept hstep
    obtain rfl := Option.some.inj (hs.symm.trans hsolution)
    exact ⟨hstep, fun n => congrArg Prod.snd (hsolve n)⟩

end Solver

end LinearProgram
