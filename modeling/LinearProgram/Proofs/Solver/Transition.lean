import LinearProgram.Solver.Call

/-!
# What a step can do

A step leaves a settled solver alone, records a failure, or takes the solve one stage further.
`Solver.Transition` lists the cases with their guards; what is kept by each of them is kept by
every run.

* `Solver.Works`               those that do not fail, with what their work reports;
* `transition_step`            a step is one of these transitions;
* `Transition.tableau_cases`   where the tableau of the next solver comes from;
* `calls_transition`           what every transition keeps holds after any calls, if the changes of
                               the settings keep it too.
-/

namespace LinearProgram

namespace Solver

variable {α : Type} [Scalar α]

inductive Transition : Solver α → Solver α → Prop where
  | stay {s : Solver α} (h : s.settled) : Transition s s
  | fail {s : Solver α} {e : Failure α} (h : s.settled = false) (he : s.advance = .error e) :
    Transition s { s with failure := some e }
  | transform {s : Solver α} (h : s.stage = .initial) :
    Transition s { s with problem := s.method.transform s.problem, stage := .transformed }
  | build {s : Solver α} {basis : List Nat} (h : s.stage = .transformed)
    (hstart : s.method.checkStart s.tolerance s.problem = .ok ())
    (hbasis : s.problem.startingBasis = .ok basis) :
    Transition s { s with
      stage := .pivoting (s.problem.pricedOut basis) false
      optimal := s.method.isOptimal s.tolerance (s.problem.pricedOut basis).toTableau }
  | finish {s : Solver α} {t : BasicTableau α} {iterated : Bool}
    (h : s.stage = .pivoting t iterated) (hoptimal : s.optimal) :
    Transition s { s with stage := .complete t }
  | exhaust {s : Solver α} {t : BasicTableau α} {iterated : Bool}
    (h : s.stage = .pivoting t iterated) (hoptimal : s.optimal = false)
    (hlimit : s.limitReached = none)
    (hnone : s.method.selectPivot s.tolerance t.toTableau = .ok none) :
    Transition s { s with stage := .pivoting t true, optimal := true }
  | pivot {s : Solver α} {t : BasicTableau α} {iterated : Bool} {row column : Nat}
    (h : s.stage = .pivoting t iterated) (hoptimal : s.optimal = false)
    (hlimit : s.limitReached = none)
    (hsome : s.method.selectPivot s.tolerance t.toTableau = .ok (some (row, column))) :
    Transition s { s with
      stage := .pivoting (t.pivot row column) true
      iterations := s.iterations + 1
      optimal := s.method.isOptimal s.tolerance (t.pivot row column).toTableau }

/-- A transition that does not fail, with what its work reports. -/
inductive Works : Solver α → List (Event α) → Solver α → Prop where
  | stay {s : Solver α} {t : BasicTableau α} (h : s.stage = .complete t) : Works s [] s
  | transform {s : Solver α} (h : s.stage = .initial) :
    Works s [.toEqualities s.problem (s.method.transform s.problem)]
      { s with problem := s.method.transform s.problem, stage := .transformed }
  | build {s : Solver α} {basis : List Nat} (h : s.stage = .transformed)
    (hstart : s.method.checkStart s.tolerance s.problem = .ok ())
    (hbasis : s.problem.startingBasis = .ok basis) :
    Works s [.initialTableau (s.problem.pricedOut basis).toTableau] { s with
      stage := .pivoting (s.problem.pricedOut basis) false
      optimal := s.method.isOptimal s.tolerance (s.problem.pricedOut basis).toTableau }
  | finish {s : Solver α} {t : BasicTableau α} {iterated : Bool}
    (h : s.stage = .pivoting t iterated) (hoptimal : s.optimal) :
    Works s [] { s with stage := .complete t }
  | exhaust {s : Solver α} {t : BasicTableau α} {iterated : Bool}
    (h : s.stage = .pivoting t iterated) (hoptimal : s.optimal = false)
    (hlimit : s.limitReached = none)
    (hnone : s.method.selectPivot s.tolerance t.toTableau = .ok none) :
    Works s [] { s with stage := .pivoting t true, optimal := true }
  | pivot {s : Solver α} {t : BasicTableau α} {iterated : Bool} {row column : Nat}
    (h : s.stage = .pivoting t iterated) (hoptimal : s.optimal = false)
    (hlimit : s.limitReached = none)
    (hsome : s.method.selectPivot s.tolerance t.toTableau = .ok (some (row, column))) :
    Works s [.pivotChosen s.method row column,
        .pivoted (s.iterations + 1) (t.pivot row column).toTableau] { s with
      stage := .pivoting (t.pivot row column) true
      iterations := s.iterations + 1
      optimal := s.method.isOptimal s.tolerance (t.pivot row column).toTableau }

/-! ### steps -/

theorem buildTableau_eq_ok {s : Solver α} {t : BasicTableau α} (h : s.buildTableau = .ok t) :
    s.method.checkStart s.tolerance s.problem = .ok () ∧
      ∃ basis, s.problem.startingBasis = .ok basis ∧ t = s.problem.pricedOut basis := by
  unfold buildTableau at h
  split at h
  · cases h
  next hstart =>
    split at h
    · cases h
    next basis hbasis =>
      exact ⟨hstart, basis, hbasis, Problem.eq_pricedOut_of_initialTableau h⟩

omit [Scalar α] in
theorem settled_of_complete {s : Solver α} {t : BasicTableau α} (h : s.stage = .complete t) :
    s.settled := by
  simp [settled, currentStep, h, Stage.step]

omit [Scalar α] in
theorem not_settled {s : Solver α} (hfail : ¬ s.failure.isSome) (h : ∀ t, s.stage ≠ .complete t) :
    s.settled = false := by
  rw [settled, Bool.or_eq_false_iff]
  refine ⟨Bool.eq_false_iff.2 hfail, ?_⟩
  rw [currentStep]
  cases hstage : s.stage with
  | initial => rfl
  | transformed => rfl
  | pivoting t iterated => cases iterated <;> rfl
  | complete t => exact absurd hstage (h t)

theorem works_of_iterate {s s' : Solver α} {t : BasicTableau α} {iterated : Bool}
    {events : List (Event α)} (hstage : s.stage = .pivoting t iterated) (hopt : s.optimal = false)
    (h : s.iterate t = .ok (s', events)) : Works s events s' := by
  unfold iterate at h
  split at h
  · cases h
  next hlimit =>
    split at h
    · cases h
    next hnone =>
      cases h
      exact .exhaust hstage hopt hlimit hnone
    next row column hsome =>
      cases h
      exact .pivot hstage hopt hlimit hsome

theorem works_of_advance {s s' : Solver α} {events : List (Event α)}
    (h : s.advance = .ok (s', events)) : Works s events s' := by
  unfold advance at h
  split at h
  next hstage =>
    cases h
    exact .transform hstage
  next hstage =>
    split at h
    · cases h
    next t ht =>
      cases h
      obtain ⟨hstart, basis, hbasis, rfl⟩ := buildTableau_eq_ok ht
      exact .build hstage hstart hbasis
  next t iterated hstage =>
    split at h
    next hopt =>
      cases h
      exact .finish hstage hopt
    next hopt => exact works_of_iterate hstage (Bool.eq_false_iff.2 hopt) h
  next t hstage =>
    cases h
    exact .stay hstage

theorem Works.transition {s s' : Solver α} {events : List (Event α)} (h : Works s events s') :
    Transition s s' := by
  cases h with
  | stay hstage => exact .stay (settled_of_complete hstage)
  | transform hstage => exact .transform hstage
  | build hstage hstart hbasis => exact .build hstage hstart hbasis
  | finish hstage hoptimal => exact .finish hstage hoptimal
  | exhaust hstage hoptimal hlimit hnone => exact .exhaust hstage hoptimal hlimit hnone
  | pivot hstage hoptimal hlimit hsome => exact .pivot hstage hoptimal hlimit hsome

theorem Works.failure_eq {s s' : Solver α} {events : List (Event α)} (h : Works s events s') :
    s'.failure = s.failure := by
  cases h <;> rfl

theorem transition_step (s : Solver α) : Transition s s.step.1 := by
  rw [step]
  split
  next hfail => exact .stay (by rw [settled, hfail, Bool.true_or])
  next hfail =>
    split
    next e he =>
      refine .fail (not_settled hfail fun t ht => ?_) he
      rw [advance, ht] at he
      cases he
    next next events hadvance =>
      have htrans := (works_of_advance hadvance).transition
      split <;> exact htrans

theorem Transition.method_eq {s s' : Solver α} (h : Transition s s') : s'.method = s.method := by
  cases h <;> rfl

theorem Transition.tolerance_eq {s s' : Solver α} (h : Transition s s') :
    s'.tolerance = s.tolerance := by
  cases h <;> rfl

theorem Transition.maxIterations_eq {s s' : Solver α} (h : Transition s s') :
    s'.maxIterations = s.maxIterations := by
  cases h <;> rfl

/-! ### tableaux -/

omit [Scalar α] in
theorem tableau?_of_pivoting {s : Solver α} {t : BasicTableau α} {iterated : Bool}
    (h : s.stage = .pivoting t iterated) : s.tableau? = some t := by
  rw [tableau?, h]
  rfl

omit [Scalar α] in
theorem tableau?_of_complete {s : Solver α} {t : BasicTableau α} (h : s.stage = .complete t) :
    s.tableau? = some t := by
  rw [tableau?, h]
  rfl

/-- the tableau of the next solver is that of the solver, or is built from its problem, or comes
from a pivot that the method selects -/
theorem Transition.tableau_cases {s s' : Solver α} (h : Transition s s') {u : BasicTableau α}
    (hu : s'.tableau? = some u) :
    s.tableau? = some u ∨
    (∃ basis, s.stage = .transformed ∧ s.method.checkStart s.tolerance s.problem = .ok () ∧
      s.problem.startingBasis = .ok basis ∧ u = s.problem.pricedOut basis) ∨
    ∃ t row column, s.tableau? = some t ∧
      s.method.selectPivot s.tolerance t.toTableau = .ok (some (row, column)) ∧
      s'.iterations = s.iterations + 1 ∧ u = t.pivot row column := by
  cases h with
  | stay => exact Or.inl hu
  | fail => exact Or.inl hu
  | transform => cases hu
  | build hstage hstart hbasis =>
    cases hu
    exact Or.inr (Or.inl ⟨_, hstage, hstart, hbasis, rfl⟩)
  | finish hstage =>
    cases hu
    exact Or.inl (tableau?_of_pivoting hstage)
  | exhaust hstage =>
    cases hu
    exact Or.inl (tableau?_of_pivoting hstage)
  | pivot hstage _ _ hsome =>
    cases hu
    exact Or.inr (Or.inr ⟨_, _, _, tableau?_of_pivoting hstage, hsome, rfl, rfl⟩)

/-! ### runs -/

/-- the solver after so many steps -/
def after (s : Solver α) : Nat → Solver α
  | 0 => s
  | n + 1 => (s.after n).step.1

theorem calls_transition {motive : Solver α → Prop} {cs : List (Call α)}
    (h : ∀ s s', Transition s s' → motive s → motive s')
    (htol : ∀ s t, .setTolerance t ∈ cs → motive s → motive (s.withTolerance t))
    (hlimit : ∀ s l, motive s → motive (s.withMaxIterations l)) {s : Solver α} (hs : motive s) :
    motive (s.calls cs).1 :=
  calls_induction (fun s => h s _ (transition_step s)) htol hlimit hs

end Solver

end LinearProgram
