import LinearProgram.Proofs.Double.Canonical
import LinearProgram.Proofs.Problem.Opposite
import LinearProgram.Proofs.Solver.Failing
import LinearProgram.Proofs.Solver.InPlace

/-!
# Opposite solves

To maximise an objective and to minimise its negation is the same work: with doubles too, the two
solves take the same decisions at every step, and differ in nothing but the signs of zeros.

* `Solver.Opposed`             two solvers in lockstep;
* `Opposed.step`               a step keeps it;
* `opposite_in_lockstep`       so do any calls.
-/

namespace LinearProgram

/-- the same stage, with opposed tableaux -/
inductive Stage.Opposed : Stage Float → Stage Float → Prop where
  | initial : Opposed .initial .initial
  | transformed : Opposed .transformed .transformed
  | pivoting {t u : BasicTableau Float} (h : t.Opposed u) (iterated : Bool) :
    Opposed (.pivoting t iterated) (.pivoting u iterated)
  | complete {t u : BasicTableau Float} (h : t.Opposed u) : Opposed (.complete t) (.complete u)

theorem Stage.Opposed.step_eq {a b : Stage Float} (h : a.Opposed b) : a.step = b.step := by
  cases h with
  | pivoting _ iterated => cases iterated <;> rfl
  | _ => rfl

theorem Stage.Opposed.tableau? {a b : Stage Float} (h : a.Opposed b) :
    Option.Rel BasicTableau.Opposed a.tableau? b.tableau? := by
  cases h with
  | initial => exact .none
  | transformed => exact .none
  | pivoting h => exact .some h
  | complete h => exact .some h

namespace Solver

/-- Two solvers in lockstep: the second minimises what the first maximises, negated. -/
structure Opposed (own : Nat) (s s' : Solver Float) : Prop where
  method_eq : s.method = s'.method
  problem : Problem.Opposed own s.problem s'.problem
  stage : s.stage.Opposed s'.stage
  optimal_eq : s.optimal = s'.optimal
  iterations_eq : s.iterations = s'.iterations
  tolerance_eq : s.tolerance = s'.tolerance
  maxIterations_eq : s.maxIterations = s'.maxIterations
  failure : Option.Rel (Failure.Opposed own) s.failure s'.failure

theorem opposed_start (m : Method) {p : Problem Float} (h : p.sense = .maximize)
    (tolerance : Float) :
    Opposed p.variableCount (start m p tolerance) (start m p.opposite tolerance) :=
  ⟨rfl, Problem.opposed_opposite h, .initial, rfl, rfl, rfl, rfl, .none⟩

namespace Opposed
variable {own : Nat} {s s' : Solver Float} (h : Opposed own s s')
include h

theorem currentStep_eq : s.currentStep = s'.currentStep := h.stage.step_eq

theorem tableau? : Option.Rel BasicTableau.Opposed s.tableau? s'.tableau? := h.stage.tableau?

theorem basis_eq : s.basis = s'.basis := by
  have htableau := h.tableau?
  rw [basis, basis]
  generalize s.tableau? = a at htableau ⊢
  generalize s'.tableau? = b at htableau ⊢
  cases htableau with
  | none => rfl
  | some ht => exact ht.basis_eq

theorem solution?_eq : s'.solution? = s.solution?.map Solution.opposite := by
  have hstage := h.stage
  rw [solution?, solution?]
  generalize s.stage = a at hstage ⊢
  generalize s'.stage = b at hstage ⊢
  cases hstage with
  | complete ht => exact congrArg some ht.solution_eq
  | _ => rfl

theorem withTolerance (tolerance : Float) :
    Opposed own (s.withTolerance tolerance) (s'.withTolerance tolerance) :=
  ⟨h.method_eq, h.problem, h.stage, h.optimal_eq, h.iterations_eq, rfl, h.maxIterations_eq,
    h.failure⟩

theorem withMaxIterations (limit : Option Nat) :
    Opposed own (s.withMaxIterations limit) (s'.withMaxIterations limit) :=
  ⟨h.method_eq, h.problem, h.stage, h.optimal_eq, h.iterations_eq, h.tolerance_eq, rfl, h.failure⟩

/-! ### transitions -/

theorem buildTableau : OutcomeRel (Failure.Opposed own) BasicTableau.Opposed
    s.buildTableau s'.buildTableau := by
  have hstart := h.problem.checkStart s.method s.tolerance
  have hbasis := h.problem.startingBasis_eq
  unfold Solver.buildTableau
  rw [← h.method_eq, ← h.tolerance_eq, ← hbasis]
  generalize s.method.checkStart s.tolerance s.problem = r at hstart ⊢
  generalize s.method.checkStart s.tolerance s'.problem = r' at hstart ⊢
  cases hstart with
  | error he => exact .error he
  | ok =>
    cases hb : s.problem.startingBasis with
    | error e =>
      obtain ⟨found, needed, rfl⟩ := Problem.startingBasis_eq_error hb
      exact .error (.same nofun)
    | ok basis => exact h.problem.initialTableau basis

theorem limitReached_eq : s.limitReached = s'.limitReached := by
  rw [limitReached, limitReached, h.maxIterations_eq, h.iterations_eq]

theorem iterate {t u : BasicTableau Float} (ht : t.Opposed u) :
    OutcomeRel (Failure.Opposed own) (fun n n' => Opposed own n.1 n'.1) (s.iterate t)
      (s'.iterate u) := by
  unfold Solver.iterate
  rw [← h.limitReached_eq, ← h.method_eq, ← h.tolerance_eq, ← ht.selectPivot_eq]
  cases hlimit : s.limitReached with
  | some limit => exact .error (.same nofun)
  | none =>
    cases hselect : s.method.selectPivot s.tolerance t.toTableau with
    | error e =>
      have hverdict := Method.isVerdict_of_selectPivot hselect
      exact .error (.same fun _ _ he => by subst he; exact hverdict)
    | ok found =>
      cases found with
      | none => exact .ok { h with
          method_eq := rfl
          stage := .pivoting ht true
          optimal_eq := rfl
          tolerance_eq := rfl }
      | some entry =>
        obtain ⟨row, column⟩ := entry
        obtain ⟨hr, hc⟩ := Method.selectPivot_lt hselect
        have hnext := ht.pivot hr hc
        exact .ok { h with
          method_eq := rfl
          stage := .pivoting hnext true
          optimal_eq := hnext.method_isOptimal_eq s.tolerance s.method
          iterations_eq := congrArg (· + 1) h.iterations_eq
          tolerance_eq := rfl }

theorem advance : OutcomeRel (Failure.Opposed own) (fun n n' => Opposed own n.1 n'.1) s.advance
    s'.advance := by
  unfold Solver.advance
  have hstage := h.stage
  generalize s.stage = a at hstage ⊢
  generalize s'.stage = b at hstage ⊢
  cases hstage with
  | initial =>
    rw [← h.method_eq]
    exact .ok { h with
      method_eq := rfl
      problem := h.problem.transform s.method
      stage := .transformed }
  | transformed =>
    have hbuild := h.buildTableau
    dsimp only
    generalize s.buildTableau = r at hbuild ⊢
    generalize s'.buildTableau = r' at hbuild ⊢
    cases hbuild with
    | error he => exact .error he
    | ok ht =>
      rw [← h.method_eq, ← h.tolerance_eq]
      exact .ok { h with
        method_eq := rfl
        stage := .pivoting ht false
        optimal_eq := ht.method_isOptimal_eq s.tolerance s.method
        tolerance_eq := rfl }
  | pivoting ht iterated =>
    dsimp only
    rw [← h.optimal_eq]
    by_cases hoptimal : s.optimal
    · rw [if_pos hoptimal, if_pos hoptimal]
      exact .ok { h with stage := .complete ht, optimal_eq := rfl }
    · rw [if_neg hoptimal, if_neg hoptimal]
      exact h.iterate ht
  | complete ht => exact .ok h

/-! ### runs -/

theorem failure_isSome_eq : s.failure.isSome = s'.failure.isSome := by
  have hfailure := h.failure
  generalize s.failure = e at hfailure ⊢
  generalize s'.failure = e' at hfailure ⊢
  cases hfailure <;> rfl

theorem settled_eq : s.settled = s'.settled := by
  rw [settled, settled, h.failure_isSome_eq, h.currentStep_eq]

theorem step : Opposed own s.step.1 s'.step.1 := by
  have hsome := h.failure_isSome_eq
  by_cases hfailed : s.failure.isSome
  · rw [step_of_failure hfailed, step_of_failure (hsome ▸ hfailed)]
    exact h
  · have hnone := Option.not_isSome_iff_eq_none.1 hfailed
    have hnone' : s'.failure = none := Option.not_isSome_iff_eq_none.1 (hsome ▸ hfailed)
    have hadvance := h.advance
    rw [step_fst hnone, step_fst hnone']
    generalize s.advance = r at hadvance ⊢
    generalize s'.advance = r' at hadvance ⊢
    cases hadvance with
    | error he => exact { h with failure := .some he }
    | ok hnext => exact hnext

omit h in
theorem run (n : Nat) : ∀ {s s' : Solver Float}, Opposed own s s' →
    Opposed own (s.run n).1 (s'.run n).1 := by
  induction n with
  | zero => exact id
  | succ n ih =>
    intro s s' h
    rw [Solver.run, Solver.run, ← h.settled_eq]
    by_cases hsettled : s.settled
    · rw [if_pos hsettled, if_pos hsettled]
      exact h
    · rw [if_neg hsettled, if_neg hsettled]
      exact ih h.step

theorem call (c : Call Float) : Opposed own (s.call c).1 (s'.call c).1 := by
  cases c with
  | step => exact h.step
  | run n => exact Opposed.run n h
  | setTolerance tolerance => exact h.withTolerance tolerance
  | setMaxIterations limit => exact h.withMaxIterations limit

omit h in
theorem calls (cs : List (Call Float)) : ∀ {s s' : Solver Float}, Opposed own s s' →
    Opposed own (s.calls cs).1 (s'.calls cs).1 := by
  induction cs with
  | nil => exact id
  | cons c cs ih =>
    intro s s' h
    rw [calls_cons, calls_cons]
    exact ih (h.call c)

end Opposed

/-- Maximising an objective and minimising its negation in doubles: after any calls the two solves
are at one step with one basis, their tableaux differ in the signs of zeros among the reduced costs
at most, they have failed alike, and their solutions have the same values and opposite objectives.
A coefficient that bars the start is reported negated; on a slack column both report its zero. -/
theorem opposite_in_lockstep (m : Method) {p : Problem Float} (hsense : p.sense = .maximize)
    (tolerance : Float) (cs : List (Call Float)) :
    let s := ((start m p tolerance).calls cs).1
    let s' := ((start m p.opposite tolerance).calls cs).1
    s.currentStep = s'.currentStep ∧ s.basis = s'.basis ∧ s.iterations = s'.iterations ∧
      s.optimal = s'.optimal ∧ Option.Rel BasicTableau.Opposed s.tableau? s'.tableau? ∧
      Option.Rel (Failure.Opposed p.variableCount) s.failure s'.failure ∧
      s'.solution? = s.solution?.map Solution.opposite := by
  have h := Opposed.calls cs (opposed_start m hsense tolerance)
  exact ⟨h.currentStep_eq, h.basis_eq, h.iterations_eq, h.optimal_eq, h.tableau?, h.failure,
    h.solution?_eq⟩

/-- The primal method solves `elevenths` and its opposite in two pivots each; the dual method can
start from neither, and reports the first coefficient of each. -/
theorem opposite_in_lockstep_elevenths :
    elevenths.sense = .maximize ∧
      ((start .primal elevenths.opposite 0).calls [.run 6]).1.iterations = 2 ∧
      (∃ solution, ((start .primal elevenths 0).calls [.run 6]).1.solution? = some solution ∧
        ((start .primal elevenths.opposite 0).calls [.run 6]).1.solution? =
          some solution.opposite) ∧
      ((start .dual elevenths.opposite 0).calls [.run 6]).1.failure =
        some (.noStartingSolution 0 (-1)) := by
  have hsense : elevenths.sense = .maximize := rfl
  obtain ⟨-, -, hiterations, -, -, -, hsolution⟩ :=
    opposite_in_lockstep .primal hsense 0 [.run 6]
  obtain ⟨-, -, -, -, -, hfailure, -⟩ := opposite_in_lockstep .dual hsense 0 [.run 6]
  have hiterated : ((start .primal elevenths 0).calls [.run 6]).1.iterations = 2 := by
    decide +kernel
  have hsome : ((start .primal elevenths 0).calls [.run 6]).1.solution?.isSome := by
    decide +kernel
  obtain ⟨solution, hsome⟩ := Option.isSome_iff_exists.1 hsome
  have hfailed : ((start .dual elevenths 0).calls [.run 6]).1.failure =
      some (.noStartingSolution 0 1) := by decide +kernel
  refine ⟨hsense, hiterations ▸ hiterated, ⟨solution, hsome, ?_⟩, ?_⟩
  · rw [hsolution, hsome]
    rfl
  · rw [hfailed] at hfailure
    generalize ((start .dual elevenths.opposite 0).calls [.run 6]).1.failure = e at hfailure
    cases hfailure with
    | some hopposed =>
      cases hopposed with
      | same h => exact absurd rfl (h 0 1)
      | noStartingSolution _ hown => rw [hown (by decide)]

end Solver

end LinearProgram
