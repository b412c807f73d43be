import LinearProgram.Proofs.Double.Zeros
import LinearProgram.Proofs.Problem.SlackColumns
import LinearProgram.Proofs.Solver.Limit

/-!
# Which failures a solve can meet

A solve fails at its step `Transform`, for want of a start or of a basis, or where a pivot is due,
by the verdict of its method or at the limit.  The form that it works on has only equalities and a
basis that fits, so none of the checks on problems and tableaux ever fails, and a basis is wanting
only if some row of the problem gets no slack of `+1`.

* `Failure.Fits`                     the failures of a method, with what they carry;
* `Solver.WorksOn.fits_of_advance`   one transition;
* `Solver.failures_fit`              every reachable solver, in doubles.
-/

namespace LinearProgram

section
variable {α : Type} [Scalar α] [ExactUnits α]

/-- A failure that a solve of `p` by the method can meet, at a step at which it can meet it. -/
def Failure.Fits (m : Method) (p : Problem α) (step : Step) : Failure α → Prop
  | dimensionMismatch .. => False
  | equalityInDual _ => False
  | notStandardForm _ => False
  | noInitialBasis found needed =>
    step = .transform ∧ found = (m.transform p).unitRowCount ∧ needed = p.constraintCount ∧
      ∃ c ∈ p.constraints, m.LacksUnitSlack c
  | noStartingSolution .. => step = .transform ∧ m = .dual
  | unbounded _ => (step = .buildTableau ∨ step = .iteration) ∧ m = .primal
  | infeasible _ => (step = .buildTableau ∨ step = .iteration) ∧ m = .dual
  | iterationLimit _ => step = .buildTableau ∨ step = .iteration

/-! ### the start -/

namespace Method

variable {m : Method} {p : Problem α} {tolerance : α} {e : Failure α}

omit [ExactUnits α] in
theorem checkStart_eq_error (h : m.checkStart tolerance p = .error e) :
    m = .dual ∧ ∃ column value, e = .noStartingSolution column value ∧
      p.objective[column]? = some value ∧ admits p.sense tolerance value = false := by
  cases m with
  | primal => cases h
  | dual =>
    simp only [checkStart] at h
    split at h
    next value column hfind =>
      cases h
      have hmem := List.mem_zipIdx_iff_getElem?.1 (List.mem_of_find?_eq_some hfind)
      exact ⟨rfl, column, value, rfl, hmem, by simpa using List.find?_some hfind⟩
    · cases h

omit [ExactUnits α] in
/-- slack columns cost nothing, so where zero is admitted none of them bars the start -/
theorem column_lt_of_checkStart (hzero : admits p.sense tolerance 0) {column : Nat} {value : α}
    (h : m.checkStart tolerance (m.transform p) = .error (.noStartingSolution column value)) :
    column < p.variableCount := by
  obtain ⟨-, c, v, heq, hget, hrefused⟩ := checkStart_eq_error h
  cases heq
  rw [sense_transform] at hrefused
  rw [objective_transform] at hget
  by_contra hge
  rw [List.getElem?_append_right (Nat.not_lt.1 hge), List.getElem?_replicate] at hget
  split at hget
  · obtain rfl : (0 : α) = value := Option.some.inj hget
    rw [hzero] at hrefused
    cases hrefused
  · cases hget

end Method

omit [ExactUnits α] in
/-- the checks on a problem and its starting basis find nothing wrong with a form -/
theorem Problem.initialTableau_of_startingBasis {p : Problem α} {basis : List Nat}
    (heq : ∀ c ∈ p.constraints, c.relation = .equal) (h : p.startingBasis = .ok basis) :
    p.initialTableau basis = .ok (p.pricedOut basis) := by
  have hrelations : p.relations.findIdx? (· != .equal) = none := by
    rw [List.findIdx?_eq_none_iff]
    intro r hr
    obtain ⟨c, hc, rfl⟩ := List.mem_map.1 hr
    rw [heq c hc]
    rfl
  have hfits := fits_pricedOut h
  have hlen : basis.length = p.constraintCount :=
    hfits.length_eq.trans (p.constraintCount_pricedOut basis)
  have hcolumns : basis.find? (p.variableCount ≤ ·) = none := by
    rw [List.find?_eq_none]
    intro column hcolumn
    simpa using hfits.lt column hcolumn
  rw [initialTableau, hrelations]
  simp only [hlen, ne_eq, not_true_eq_false, if_false, hcolumns]

/-! ### the problem that a solver holds -/

namespace Solver

/-- the solver works by the method on `p`: it holds `p` itself at first, and then its form -/
structure WorksOn (m : Method) (p : Problem α) (s : Solver α) : Prop where
  method_eq : s.method = m
  given : s.stage = .initial → s.problem = p
  transformed : s.stage ≠ .initial → s.problem = m.transform p

variable {m : Method} {p : Problem α} {s s' : Solver α}

omit [ExactUnits α] in
theorem worksOn_start (m : Method) (p : Problem α) (tolerance : α) :
    WorksOn m p (start m p tolerance) := ⟨rfl, fun _ => rfl, fun h => absurd rfl h⟩

omit [ExactUnits α] in
theorem WorksOn.transition (h : Transition s s') (hs : WorksOn m p s) : WorksOn m p s' := by
  refine ⟨h.method_eq.trans hs.method_eq, ?_, ?_⟩
  · cases h with
    | stay => exact hs.given
    | fail => exact hs.given
    | _ => exact nofun
  · cases h with
    | stay => exact hs.transformed
    | fail => exact hs.transformed
    | transform hstage =>
      intro _
      show s.method.transform s.problem = m.transform p
      rw [hs.method_eq, hs.given hstage]
    | build hstage => exact fun _ => hs.transformed (by rw [hstage]; exact nofun)
    | finish hstage => exact fun _ => hs.transformed (by rw [hstage]; exact nofun)
    | exhaust hstage => exact fun _ => hs.transformed (by rw [hstage]; exact nofun)
    | pivot hstage => exact fun _ => hs.transformed (by rw [hstage]; exact nofun)

omit [ExactUnits α] in
theorem WorksOn.withTolerance (hs : WorksOn m p s) (t : α) : WorksOn m p (s.withTolerance t) :=
  ⟨hs.method_eq, hs.given, hs.transformed⟩

omit [ExactUnits α] in
theorem WorksOn.withMaxIterations (hs : WorksOn m p s) (l : Option Nat) :
    WorksOn m p (s.withMaxIterations l) := ⟨hs.method_eq, hs.given, hs.transformed⟩

omit [ExactUnits α] in
theorem worksOn_calls (m : Method) (p : Problem α) (tolerance : α) (cs : List (Call α)) :
    WorksOn m p ((start m p tolerance).calls cs).1 := by
  exact calls_transition (fun _ _ h hs => hs.transition h) (fun _ t _ hs => hs.withTolerance t)
    (fun _ l hs => hs.withMaxIterations l) (worksOn_start m p tolerance)

/-! ### one transition -/

omit [ExactUnits α] in
theorem WorksOn.checkStart_eq_error {e : Failure α} (hs : WorksOn m p s)
    (hstage : s.stage = .transformed) (h : s.method.checkStart s.tolerance s.problem = .error e) :
    m.checkStart s.tolerance (m.transform p) = .error e := by
  rw [← h, hs.method_eq, hs.transformed (by rw [hstage]; exact nofun)]

theorem WorksOn.fits_of_buildTableau {e : Failure α} (hs : WorksOn m p s)
    (hstage : s.stage = .transformed) (h : s.buildTableau = .error e) :
    e.Fits m p .transform := by
  have hproblem := hs.transformed (by rw [hstage]; exact nofun)
  unfold buildTableau at h
  split at h
  next e hstart =>
    cases h
    obtain ⟨hm, column, value, rfl, -⟩ :=
      Method.checkStart_eq_error (hs.checkStart_eq_error hstage hstart)
    exact ⟨rfl, hm⟩
  split at h
  next e hbasis =>
    cases h
    rw [hproblem] at hbasis
    obtain ⟨rfl, hlacks⟩ := Method.startingBasis_transform_error hbasis
    exact ⟨rfl, rfl, rfl, hlacks⟩
  next basis hbasis =>
    rw [hproblem] at h hbasis
    rw [Problem.initialTableau_of_startingBasis (m.relation_of_mem_transform p) hbasis] at h
    cases h

omit [Scalar α] [ExactUnits α] in
theorem currentStep_of_pivoting {t : BasicTableau α} {iterated : Bool}
    (h : s.stage = .pivoting t iterated) :
    s.currentStep = .buildTableau ∨ s.currentStep = .iteration := by
  rw [currentStep, h]
  cases iterated with
  | false => exact Or.inl rfl
  | true => exact Or.inr rfl

theorem WorksOn.fits_of_advance {e : Failure α} (hs : WorksOn m p s)
    (h : s.advance = .error e) : e.Fits m p s.currentStep := by
  obtain ⟨hstage, hbuild⟩ | ⟨t, iterated, hstage, -, hiterate⟩ := advance_eq_error h
  · have hstep : s.currentStep = .transform := by rw [currentStep, hstage, Stage.step]
    rw [hstep]
    exact hs.fits_of_buildTableau hstage hbuild
  · have hstep := currentStep_of_pivoting hstage
    obtain ⟨limit, -, rfl⟩ | ⟨-, hselect⟩ := iterate_eq_error hiterate
    · exact hstep
    · rw [hs.method_eq] at hselect
      cases m with
      | primal =>
        obtain ⟨column, rfl, -, -⟩ := Method.selectPivot_primal_error hselect
        exact ⟨hstep, rfl⟩
      | dual =>
        obtain ⟨row, rfl, -, -⟩ := Method.selectPivot_dual_error hselect
        exact ⟨hstep, rfl⟩

omit [ExactUnits α] in
/-- a start is barred only where a tableau is due, by the coefficient that the check names -/
theorem WorksOn.checkStart_of_advance {column : Nat} {value : α} (hs : WorksOn m p s)
    (h : s.advance = .error (.noStartingSolution column value)) :
    m.checkStart s.tolerance (m.transform p) = .error (.noStartingSolution column value) := by
  obtain ⟨hstage, hbuild⟩ | ⟨t, iterated, -, -, hiterate⟩ := advance_eq_error h
  · unfold buildTableau at hbuild
    split at hbuild
    next e hstart =>
      cases hbuild
      exact hs.checkStart_eq_error hstage hstart
    split at hbuild
    next e hbasis =>
      cases hbuild
      obtain ⟨_, _, he⟩ := Problem.startingBasis_eq_error hbasis
      cases he
    next basis hbasis =>
      rw [hs.transformed (by rw [hstage]; exact nofun)] at hbasis hbuild
      rw [Problem.initialTableau_of_startingBasis (m.relation_of_mem_transform p) hbasis] at hbuild
      cases hbuild
  · obtain ⟨limit, -, he⟩ | ⟨-, hselect⟩ := iterate_eq_error hiterate
    · cases he
    · exact absurd (Method.isVerdict_of_selectPivot hselect) id

/-! ### reachable solvers -/

omit [ExactUnits α] in
/-- a failure after a step was there before it, or the transition has just failed with it -/
theorem failure_of_step {e : Failure α} (he : s.step.1.failure = some e) :
    s.failure = some e ∧ s.step.1 = s ∨
      s.advance = .error e ∧ s.step.1 = { s with failure := some e } := by
  cases hfail : s.failure with
  | some e' =>
    rw [step_of_failure (by rw [hfail]; rfl)] at he ⊢
    exact Or.inl ⟨hfail.symm.trans he, rfl⟩
  | none =>
    refine Or.inr ⟨?_, step_eq_of_failed hfail he⟩
    rw [step_fst hfail] at he
    cases hadvance : s.advance with
    | error e' =>
      rw [hadvance] at he
      exact congrArg Except.error (Option.some.inj he)
    | ok result =>
      rw [hadvance] at he
      exact nomatch ((failure_of_advance hadvance).trans hfail).symm.trans he

theorem fits_calls (m : Method) (p : Problem α) (tolerance : α) (cs : List (Call α)) :
    ∀ e, ((start m p tolerance).calls cs).1.failure = some e →
      e.Fits m p ((start m p tolerance).calls cs).1.currentStep := by
  suffices hcalls : WorksOn m p ((start m p tolerance).calls cs).1 ∧
      ∀ e, ((start m p tolerance).calls cs).1.failure = some e →
        e.Fits m p ((start m p tolerance).calls cs).1.currentStep from hcalls.2
  refine calls_induction
    (motive := fun s => WorksOn m p s ∧ ∀ e, s.failure = some e → e.Fits m p s.currentStep)
    (fun s hs => ?_) (fun _ t _ hs => ⟨hs.1.withTolerance t, hs.2⟩)
    (fun _ l hs => ⟨hs.1.withMaxIterations l, hs.2⟩) ⟨worksOn_start m p tolerance, nofun⟩
  refine ⟨hs.1.transition (transition_step s), fun e he => ?_⟩
  obtain ⟨hold, hsame⟩ | ⟨hadvance, hnext⟩ := failure_of_step he
  · rw [hsame]
    exact hs.2 e hold
  · rw [hnext]
    exact hs.1.fits_of_advance hadvance

/-- what a transition or a solve answers with is the failure that it leaves recorded -/
theorem fits_of_move {tolerance : α} {cs : List (Call α)} {e : Failure α}
    (hs : s = ((start m p tolerance).calls cs).1) (h : s.move.2 = .error e) :
    e.Fits m p s.move.1.currentStep := by
  have hnext : s.step.1 = ((start m p tolerance).calls (cs ++ [.step])).1 := by
    rw [hs, calls_append]
    rfl
  rw [move_eq] at h ⊢
  have hfailure := standing_eq_error_iff.1 h
  rw [hnext] at hfailure ⊢
  exact fits_calls m p tolerance _ e hfailure

theorem fits_of_solve {tolerance : α} {cs : List (Call α)} {e : Failure α} {n : Nat}
    (hs : s = ((start m p tolerance).calls cs).1) (h : (s.solve n).2 = some (.error e)) :
    e.Fits m p (s.solve n).1.currentStep := by
  have hlast : (s.run n).1 = ((start m p tolerance).calls (cs ++ [.run n])).1 := by
    rw [hs, calls_append]
    rfl
  obtain ⟨hsolver, hresult⟩ := s.solve_eq_run n
  have hfailure : (s.run n).1.failure = some e := failure_of_result (hresult _ h)
  rw [hlast] at hfailure
  rw [hsolver, hlast]
  exact fits_calls m p tolerance _ e hfailure

omit [ExactUnits α] in
/-- at tolerances that admit a zero, the start is refused for a variable of the problem -/
theorem column_lt_calls {p : Problem α} {tolerance : α} {cs : List (Call α)}
    (htol : Method.admits p.sense tolerance 0)
    (hcs : ∀ t, .setTolerance t ∈ cs → Method.admits p.sense t 0) {column : Nat} {value : α}
    (h : ((start m p tolerance).calls cs).1.failure = some (.noStartingSolution column value)) :
    column < p.variableCount := by
  suffices hcalls : WorksOn m p ((start m p tolerance).calls cs).1 ∧
      Method.admits p.sense ((start m p tolerance).calls cs).1.tolerance 0 ∧
      ∀ column value, ((start m p tolerance).calls cs).1.failure =
        some (.noStartingSolution column value) → column < p.variableCount from
    hcalls.2.2 column value h
  refine calls_induction (motive := fun s => WorksOn m p s ∧
      Method.admits p.sense s.tolerance 0 ∧ ∀ column value,
        s.failure = some (.noStartingSolution column value) → column < p.variableCount)
    (fun s hs => ?_) (fun _ t ht hs => ⟨hs.1.withTolerance t, hcs t ht, hs.2.2⟩)
    (fun _ l hs => ⟨hs.1.withMaxIterations l, hs.2.1, hs.2.2⟩)
    ⟨worksOn_start m p tolerance, htol, nofun⟩
  have hstep := transition_step s
  refine ⟨hs.1.transition hstep, hstep.tolerance_eq ▸ hs.2.1, fun column value he => ?_⟩
  obtain ⟨hold, -⟩ | ⟨hadvance, -⟩ := failure_of_step he
  · exact hs.2.2 column value hold
  · exact Method.column_lt_of_checkStart hs.2.1 (hs.1.checkStart_of_advance hadvance)

end Solver

end

/-! ### doubles -/

/-- at a tolerance that is not negative a zero is admitted -/
theorem Method.admits_zero {tolerance : Float} (h : 0 ≤ tolerance) (sense : Sense) :
    admits sense tolerance 0 := by
  cases sense with
  | maximize => exact decide_eq_true h
  | minimize =>
    have hzero : Double.Alike (-0) 0 := Or.inr ⟨rfl, rfl⟩
    have hneg : -tolerance ≤ -(-0 : Float) :=
      (Double.neg_le_neg_iff _ _).2 ((hzero.le_iff (Double.Alike.refl _)).2 h)
    exact decide_eq_true hneg

namespace Solver

/-- Whatever is called, in doubles a solver of `p` records no failure but those of its method, each
at the step where it is due and with the counts of the problem, and it answers with no others.  A
start that is refused at a tolerance that is not negative is refused for a variable of `p`, not for
a slack. -/
theorem failures_fit (m : Method) (p : Problem Float) (tolerance : Float)
    (cs : List (Call Float)) :
    let s := ((start m p tolerance).calls cs).1
    (∀ e, s.failure = some e → e.Fits m p s.currentStep) ∧
    (∀ e, s.move.2 = .error e → e.Fits m p s.move.1.currentStep) ∧
    (∀ n e, (s.solve n).2 = some (.error e) → e.Fits m p (s.solve n).1.currentStep) ∧
    (∀ column value, s.failure = none → s.move.2 = .error (.noStartingSolution column value) →
      0 ≤ s.tolerance → column < p.variableCount) ∧
    ∀ column value, s.failure = some (.noStartingSolution column value) →
      0 ≤ tolerance → (∀ t, .setTolerance t ∈ cs → 0 ≤ t) → column < p.variableCount := by
  intro s
  have hs : WorksOn m p s := worksOn_calls m p tolerance cs
  refine ⟨fits_calls m p tolerance cs, fun e => fits_of_move rfl, fun n e => fits_of_solve rfl,
    fun column value hnone hmove htol => ?_, fun column value he htol hcs => ?_⟩
  · have hadvance := (move_eq_error hnone (Prod.ext rfl hmove)).1
    exact Method.column_lt_of_checkStart (Method.admits_zero htol p.sense)
      (hs.checkStart_of_advance hadvance)
  · exact column_lt_calls (Method.admits_zero htol p.sense)
      (fun t ht => Method.admits_zero (hcs t ht) p.sense) he

/-- the greatest `x + 2y` with a row of each relation, of which only the first gets a slack of `+1`
from the primal method -/
def oneUnitSlack : Problem Float :=
  ⟨[1, 2], .maximize, [⟨[3, 7], .lessEqual, 10⟩, ⟨[2, 1], .greaterEqual, 2⟩,
    ⟨[1, -1], .equal, 0⟩], by decide⟩

/-- The primal method finds one unit column for three rows.  The dual method refuses the second
variable at tolerance one, and the first at tolerance one half. -/
theorem failures_fit_oneUnitSlack :
    (let s := ((start .primal oneUnitSlack 0).calls [.run 5, .setTolerance 1]).1
     s.failure = some (.noInitialBasis 1 3) ∧ s.currentStep = .transform ∧
      oneUnitSlack.standardForm.unitRowCount = 1 ∧
      (∃ c ∈ oneUnitSlack.constraints, Method.primal.LacksUnitSlack c) ∧
      (s.solve 1).2 = some (.error (.noInitialBasis 1 3)) ∧
      (s.solve 1).1.currentStep = .transform) ∧
    (let s := ((start .dual oneUnitSlack (-1)).calls [.step, .setTolerance 1]).1
     s.failure = none ∧ s.move.2 = .error (.noStartingSolution 1 2) ∧
      s.move.1.currentStep = .transform ∧ 0 ≤ s.tolerance ∧ 1 < oneUnitSlack.variableCount) ∧
    (let s := ((start .dual oneUnitSlack 1).calls [.step, .setTolerance (1 / 2), .run 3]).1
     s.failure = some (.noStartingSolution 0 1) ∧ (0 : Float) ≤ 1 ∧
      (∀ t, .setTolerance t ∈ [Call.step, .setTolerance (1 / 2), .run 3] → (0 : Float) ≤ t) ∧
      0 < oneUnitSlack.variableCount) := by
  refine ⟨?_, ?_, ?_⟩
  · intro s
    have hfailure : s.failure = some (.noInitialBasis 1 3) := by decide +kernel
    have hsolution : s.solution? = none := by decide +kernel
    obtain ⟨hfits, -, hsolve, -⟩ := failures_fit .primal oneUnitSlack 0 [.run 5, .setTolerance 1]
    obtain ⟨hstep, hfound, -, hlacks⟩ := hfits _ hfailure
    have hanswer : (s.solve 1).2 = some (.error (.noInitialBasis 1 3)) :=
      congrArg Prod.snd ((answer_of_failed hfailure hsolution).2 0)
    exact ⟨hfailure, hstep, hfound.symm, hlacks, hanswer, (hsolve 1 _ hanswer).1⟩
  · intro s
    have hnone : s.failure = none := by decide +kernel
    have hstep : s.step.1.failure = some (.noStartingSolution 1 2) := by decide +kernel
    have hmove : s.move.2 = .error (.noStartingSolution 1 2) := by
      rw [move_eq]
      simp only [standing, hstep]
    have htol : 0 ≤ s.tolerance := by decide +kernel
    obtain ⟨-, hfits, -, hcolumn, -⟩ :=
      failures_fit .dual oneUnitSlack (-1) [.step, .setTolerance 1]
    exact ⟨hnone, hmove, (hfits _ hmove).1, htol, hcolumn 1 2 hnone hmove htol⟩
  · intro s
    have hfailure : s.failure = some (.noStartingSolution 0 1) := by decide +kernel
    have htol : (0 : Float) ≤ 1 := by decide +kernel
    have hcs : ∀ t, .setTolerance t ∈ [Call.step, .setTolerance (1 / 2), .run 3] →
        (0 : Float) ≤ t := by
      intro t ht
      obtain rfl : t = 1 / 2 := by simpa using ht
      decide +kernel
    obtain ⟨-, -, -, -, hcolumn⟩ :=
      failures_fit .dual oneUnitSlack 1 [.step, .setTolerance (1 / 2), .run 3]
    exact ⟨hfailure, htol, hcs, hcolumn 0 1 hfailure htol hcs⟩

end Solver

end LinearProgram
