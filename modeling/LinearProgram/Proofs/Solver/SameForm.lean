import LinearProgram.Proofs.Solver.InPlace
import LinearProgram.Solver.Call

/-!
# Problems with one form

The first step of a solve replaces the problem by its form, and nothing reads the problem before.
So two problems of as many variables that have one form are solved alike: the two solvers differ
until they have started, and from then on they are one.

* `Solver.Joined`          one solver, or two that have not started;
* `Joined.step_eq`         one step makes them one;
* `Joined.calls`           what calls report, and what they leave;
* `Solver.SolvedAlike`     what two such solves have in common;
* `solvedAlike`            that they have it after any calls.
-/

namespace LinearProgram

namespace Solver

variable {α : Type} [Scalar α] {m : Method} {p q : Problem α} {s s' : Solver α}

/-- one solver, or two that have not started and will transform their problems into one -/
inductive Joined : Solver α → Solver α → Prop where
  | one (s : Solver α) : Joined s s
  | unstarted {s : Solver α} {q : Problem α} (hstage : s.stage = .initial)
    (hnone : s.failure = none) (hform : s.method.transform q = s.method.transform s.problem)
    (hcount : q.variableCount = s.problem.variableCount) : Joined s { s with problem := q }

theorem joined_start (m : Method) (hform : m.transform q = m.transform p)
    (hcount : q.variableCount = p.variableCount) (tolerance : α) :
    Joined (start m p tolerance) (start m q tolerance) := .unstarted rfl rfl hform hcount

/-! ### steps -/

/-- the first step takes of the problem no more than its form, and its size for the report -/
theorem step_of_unstarted (hstage : s.stage = .initial) (hnone : s.failure = none) :
    s.step = ({ s with problem := s.method.transform s.problem, stage := .transformed },
      [.toEqualities s.problem (s.method.transform s.problem),
        .stepped s.method .init .transform]) := by
  obtain ⟨method, problem, stage, optimal, iterations, tolerance, maxIterations, failure⟩ := s
  subst hstage hnone
  rfl

theorem Joined.step_eq (h : Joined s s') : s'.step = s.step := by
  cases h with
  | one => rfl
  | @unstarted q hstage hnone hform hcount =>
    have hrows : q.constraintCount = s.problem.constraintCount := by
      rw [← s.method.constraintCount_transform q, hform, Method.constraintCount_transform]
    have hreport : Event.toEqualities q (s.method.transform s.problem) =
        .toEqualities s.problem (s.method.transform s.problem) := by
      simp only [Event.toEqualities, hrows, hcount]
    rw [step_of_unstarted hstage hnone, step_of_unstarted (s := { s with problem := q }) hstage hnone]
    dsimp only
    rw [hform, hreport]

theorem Joined.settled_eq (h : Joined s s') : s'.settled = s.settled := by
  cases h <;> rfl

theorem Joined.currentStep_eq (h : Joined s s') : s'.currentStep = s.currentStep := by
  cases h <;> rfl

theorem Joined.solution?_eq (h : Joined s s') : s'.solution? = s.solution? := by
  cases h <;> rfl

theorem Joined.eq_of_currentStep (h : Joined s s') (hstarted : s.currentStep ≠ .init) :
    s' = s := by
  cases h with
  | one => rfl
  | unstarted hstage =>
    rw [currentStep, hstage] at hstarted
    exact absurd rfl hstarted

theorem Joined.move_eq (h : Joined s s') : s'.move = s.move := by
  rw [Solver.move_eq, Solver.move_eq, h.step_eq]

theorem Joined.solve_eq (h : Joined s s') (n : Nat) : s'.solve (n + 1) = s.solve (n + 1) := by
  have hsolution := h.solution?_eq
  have hmove := h.move_eq
  cases h with
  | one => rfl
  | unstarted hstage =>
    have hnone : s.solution? = none := by rw [solution?, hstage]
    rw [solve, solve, hsolution, hmove, hnone]

/-! ### calls -/

/-- With a step to take, a run makes them one. -/
theorem Joined.run (h : Joined s s') (n : Nat) :
    Joined (s.run n).1 (s'.run n).1 ∧ (s'.run n).2 = (s.run n).2 := by
  cases n with
  | zero => exact ⟨h, rfl⟩
  | succ n =>
    rw [Solver.run, Solver.run, h.settled_eq, h.step_eq]
    by_cases hsettled : s.settled
    · rw [if_pos hsettled, if_pos hsettled]
      exact ⟨h, rfl⟩
    · rw [if_neg hsettled, if_neg hsettled]
      exact ⟨.one _, rfl⟩

theorem Joined.call (h : Joined s s') (c : Call α) :
    Joined (s.call c).1 (s'.call c).1 ∧ (s'.call c).2 = (s.call c).2 := by
  cases c with
  | step =>
    rw [Solver.call, Solver.call, h.step_eq]
    exact ⟨.one _, rfl⟩
  | run n => exact h.run n
  | setTolerance tolerance =>
    cases h with
    | one => exact ⟨.one _, rfl⟩
    | unstarted hstage hnone hform hcount => exact ⟨.unstarted hstage hnone hform hcount, rfl⟩
  | setMaxIterations limit =>
    cases h with
    | one => exact ⟨.one _, rfl⟩
    | unstarted hstage hnone hform hcount => exact ⟨.unstarted hstage hnone hform hcount, rfl⟩

theorem Joined.calls (h : Joined s s') (cs : List (Call α)) :
    Joined (s.calls cs).1 (s'.calls cs).1 ∧ (s'.calls cs).2 = (s.calls cs).2 := by
  induction cs generalizing s s' with
  | nil => exact ⟨h, rfl⟩
  | cons c cs ih =>
    obtain ⟨hnext, hevents⟩ := h.call c
    obtain ⟨hlast, hmore⟩ := ih hnext
    rw [calls_cons, calls_cons, hevents, hmore]
    exact ⟨hlast, rfl⟩

/-! ### two problems -/

/-- After any calls the solvers of both problems have reported the same, and they move and solve
alike; once they have started they are one. -/
structure SolvedAlike (m : Method) (p q : Problem α) : Prop where
  events_eq : ∀ tolerance cs,
    ((start m q tolerance).calls cs).2 = ((start m p tolerance).calls cs).2
  currentStep_eq : ∀ tolerance cs, ((start m q tolerance).calls cs).1.currentStep =
    ((start m p tolerance).calls cs).1.currentStep
  solver_eq : ∀ tolerance cs, ((start m p tolerance).calls cs).1.currentStep ≠ .init →
    ((start m q tolerance).calls cs).1 = ((start m p tolerance).calls cs).1
  move_eq : ∀ tolerance cs, ((start m q tolerance).calls cs).1.move =
    ((start m p tolerance).calls cs).1.move
  solve_eq : ∀ tolerance cs n, ((start m q tolerance).calls cs).1.solve (n + 1) =
    ((start m p tolerance).calls cs).1.solve (n + 1)

theorem solvedAlike (hform : m.transform q = m.transform p)
    (hcount : q.variableCount = p.variableCount) : SolvedAlike m p q := by
  have hcalls tolerance cs := (joined_start m hform hcount tolerance).calls cs
  exact ⟨fun t cs => (hcalls t cs).2, fun t cs => (hcalls t cs).1.currentStep_eq,
    fun t cs => (hcalls t cs).1.eq_of_currentStep, fun t cs => (hcalls t cs).1.move_eq,
    fun t cs => (hcalls t cs).1.solve_eq⟩

end Solver

end LinearProgram
