import LinearProgram.Proofs.Checked.Initial
import LinearProgram.Proofs.Checked.Pivot
import LinearProgram.Proofs.Solver.InPlace

/-!
# The solver with checked access

The solver over parts and grids, with each access checked: there is no result where an index is
outside of its list, a copy is between lengths that differ, a length falls below zero, or parts fail
their assertion.  From the parts of a problem it never comes to that: it does what the solver of the
problem does.

* `CheckedSolver`          the same solver over lists of any lengths;
* `Solver.Shaped`          the tableau of a solver has the counts of its problem;
* `CheckedSolver.calls?_checked`   all calls are defined;
* `Solver.in_range`        problems, reformulations and solves never leave their lists.
-/

namespace LinearProgram

/-- what a checked solve holds at each stage -/
inductive CheckedStage (α : Type) where
  | initial
  | transformed
  | pivoting (grid : Grid α) (iterated : Bool)
  | complete (grid : Grid α)

structure CheckedSolver (α : Type) where
  method : Method
  problem : Parts α
  stage : CheckedStage α
  optimal : Bool
  iterations : Nat
  tolerance : α
  maxIterations : Option Nat
  failure : Option (Failure α)

/-- what the last step produced -/
inductive CheckedSnapshot (α : Type) where
  | problem (problem : Parts α)
  | grid (grid : Grid α)
  | solution (solution : Solution α)

namespace Stage

variable {α : Type}

def checked : Stage α → CheckedStage α
  | initial => .initial
  | transformed => .transformed
  | pivoting t iterated => .pivoting t.grid iterated
  | complete t => .complete t.grid

end Stage

def Snapshot.checked {α : Type} : Snapshot α → CheckedSnapshot α
  | problem p => .problem p.parts
  | tableau t => .grid t.grid
  | solution s => .solution s

def Solver.checked {α : Type} (s : Solver α) : CheckedSolver α where
  method := s.method
  problem := s.problem.parts
  stage := s.stage.checked
  optimal := s.optimal
  iterations := s.iterations
  tolerance := s.tolerance
  maxIterations := s.maxIterations
  failure := s.failure

namespace Solver

variable {α : Type} (s : Solver α)

theorem stage_checked : s.checked.stage = s.stage.checked := rfl

theorem optimal_checked : s.checked.optimal = s.optimal := rfl

theorem failure_checked : s.checked.failure = s.failure := rfl

end Solver

/-! ### before the first pivot -/

namespace Parts

variable {α : Type} [Scalar α]

def transform? (m : Method) (p : Parts α) : Option (Parts α) :=
  match m with
  | .primal => p.expand? nonnegRule
  | .dual => p.expand? lessEqualRule

/-- the coefficient that keeps the method from starting is looked up by its column -/
def checkStart? (m : Method) (tolerance : α) (p : Parts α) : Option (Except (Failure α) Unit) :=
  match m with
  | .primal => some (.ok ())
  | .dual =>
    match p.objective.findIdx? fun c => !Method.admits p.sense tolerance c with
    | some column => do
      let value ← p.objective[column]?
      some (.error (.noStartingSolution column value))
    | none => some (.ok ())

theorem transform?_eq (m : Method) (q : Problem α) :
    q.parts.transform? m = some (m.transform q).parts := by
  cases m with
  | primal => exact expand?_eq turns_nonnegRule Constraint.length_withNonnegRhs q
  | dual => exact expand?_eq turns_lessEqualRule Constraint.length_asLessEqual q

theorem checkStart?_eq (m : Method) (tolerance : α) (q : Problem α) :
    q.parts.checkStart? m tolerance = some (m.checkStart tolerance q) := by
  cases m with
  | primal => rfl
  | dual =>
    rw [checkStart?, Method.checkStart]
    dsimp only [Problem.parts]
    rw [List.findIdx?_eq_fst_find?_zipIdx]
    cases hfind : q.objective.zipIdx.find? fun x => !Method.admits q.sense tolerance x.1 with
    | none => rfl
    | some found =>
      have hget : q.objective[found.2]? = some found.1 :=
        List.mem_zipIdx_iff_getElem?.1 (List.mem_of_find?_eq_some hfind)
      simp only [Option.map_some, Option.bind_eq_bind, hget, Option.bind_some]

end Parts

namespace CheckedSolver

variable {α : Type}

def limitReached (s : CheckedSolver α) : Option Nat := s.maxIterations.filter (· ≤ s.iterations)

def settled (s : CheckedSolver α) : Bool :=
  s.failure.isSome || match s.stage with
    | .complete _ => true
    | _ => false

variable [Scalar α]

/-! ### transitions -/

def buildGrid? (s : CheckedSolver α) : Option (Except (Failure α) (Grid α)) := do
  match ← s.problem.checkStart? s.method s.tolerance with
  | .error e => some (.error e)
  | .ok () =>
    match ← findBasis? s.problem.matrix with
    | .error e => some (.error e)
    | .ok basis => s.problem.initialGrid? basis

def iterate? (s : CheckedSolver α) (g : Grid α) :
    Option (Except (Failure α) (CheckedSolver α)) :=
  match s.limitReached with
  | some limit => some (.error (.iterationLimit limit))
  | none => do
    match ← Grid.selectPivot? s.method s.tolerance g with
    | .error e => some (.error e)
    | .ok none => some (.ok { s with stage := .pivoting g true, optimal := true })
    | .ok (some (row, column)) =>
      let next ← g.pivot? row column
      let optimal ← Grid.isOptimal? s.method s.tolerance next
      some (.ok { s with
        stage := .pivoting next true
        iterations := s.iterations + 1
        optimal := optimal })

def advance? (s : CheckedSolver α) : Option (Except (Failure α) (CheckedSolver α)) :=
  match s.stage with
  | .initial => do
    let p ← s.problem.transform? s.method
    some (.ok { s with problem := p, stage := .transformed })
  | .transformed => do
    match ← s.buildGrid? with
    | .error e => some (.error e)
    | .ok g =>
      let optimal ← Grid.isOptimal? s.method s.tolerance g
      some (.ok { s with stage := .pivoting g false, optimal := optimal })
  | .pivoting g _ => if s.optimal then some (.ok { s with stage := .complete g }) else s.iterate? g
  | .complete _ => some (.ok s)

def step? (s : CheckedSolver α) : Option (CheckedSolver α) :=
  if s.failure.isSome then some s
  else do
    match ← s.advance? with
    | .error e => some { s with failure := some e }
    | .ok next => some next

def run? : Nat → CheckedSolver α → Option (CheckedSolver α)
  | 0, s => some s
  | n + 1, s =>
    if s.settled then some s
    else do
      let next ← s.step?
      run? n next

def call? (s : CheckedSolver α) : Call α → Option (CheckedSolver α)
  | .step => s.step?
  | .run steps => s.run? steps
  | .setTolerance tolerance => some { s with tolerance := tolerance }
  | .setMaxIterations limit => some { s with maxIterations := limit }

def calls? (s : CheckedSolver α) : List (Call α) → Option (CheckedSolver α)
  | [] => some s
  | c :: rest => do
    let next ← s.call? c
    next.calls? rest

/-! ### results -/

/-- the solution of a complete solve is read off its grid each time it is asked for -/
def solution? (s : CheckedSolver α) : Option (Option (Solution α)) :=
  match s.stage with
  | .complete g => g.solution?.map some
  | _ => some none

def snapshot? (s : CheckedSolver α) : Option (Option (CheckedSnapshot α)) :=
  match s.stage with
  | .initial => some none
  | .transformed => some (some (.problem s.problem))
  | .pivoting g _ => some (some (.grid g))
  | .complete g => g.solution?.map fun solution => some (.solution solution)

end CheckedSolver

/-! ### the shape of a solver -/

namespace Solver

variable {α : Type}

/-- the tableau, where there is one, has the counts of the problem, and its basis fits it -/
def Shaped (s : Solver α) : Prop :=
  ∀ t, s.tableau? = some t → t.Fits ∧ t.constraintCount = s.problem.constraintCount ∧
    t.variableCount = s.problem.variableCount

theorem shaped_start (m : Method) (p : Problem α) (tolerance : α) :
    (start m p tolerance).Shaped := nofun

variable {s : Solver α}

theorem Shaped.length_rows (h : s.Shaped) {t : BasicTableau α} (ht : s.tableau? = some t) :
    t.rows.length = s.problem.constraintCount + 1 ∧
      ∀ row ∈ t.rows, row.length = s.problem.variableCount + 1 := by
  obtain ⟨-, hn, hm⟩ := h t ht
  exact ⟨by rw [t.length_rows, hn], fun row hrow => by rw [t.width_eq row hrow, hm]⟩

theorem Shaped.basis_lt (h : s.Shaped) {t : BasicTableau α} (ht : s.tableau? = some t) :
    t.basis.length = s.problem.constraintCount ∧
      ∀ column ∈ t.basis, column < s.problem.variableCount := by
  obtain ⟨hfits, hn, hm⟩ := h t ht
  exact ⟨by rw [hfits.length_eq, hn], fun column hcolumn => by rw [← hm]; exact hfits.lt _ hcolumn⟩

variable [Scalar α]

theorem Shaped.transition {s' : Solver α} (hstep : Transition s s') (h : s.Shaped) :
    s'.Shaped := by
  cases hstep with
  | stay => exact h
  | fail => exact h
  | transform => exact nofun
  | build _ _ hbasis =>
    intro t ht
    obtain rfl := Option.some.inj ht
    exact ⟨Problem.fits_pricedOut hbasis, s.problem.constraintCount_pricedOut _, rfl⟩
  | finish hstage =>
    intro t ht
    obtain rfl := Option.some.inj ht
    exact h _ (tableau?_of_pivoting hstage)
  | exhaust hstage =>
    intro t ht
    obtain rfl := Option.some.inj ht
    exact h _ (tableau?_of_pivoting hstage)
  | @pivot t _ row column hstage _ _ hsome =>
    intro u hu
    obtain rfl := Option.some.inj hu
    obtain ⟨hfits, hn, hm⟩ := h _ (tableau?_of_pivoting hstage)
    obtain ⟨-, hc⟩ := Method.selectPivot_lt hsome
    exact ⟨hfits.pivot row hc, (BasicTableau.constraintCount_pivot t row column).trans hn,
      (BasicTableau.variableCount_pivot t row column).trans hm⟩

theorem Shaped.step (h : s.Shaped) : s.step.1.Shaped := h.transition (transition_step s)

theorem Shaped.calls (h : s.Shaped) (cs : List (Call α)) : (s.calls cs).1.Shaped :=
  calls_transition (fun _ _ hstep h => h.transition hstep) (fun _ _ _ h => h) (fun _ _ h => h) h

end Solver

/-! ### no access fails -/

namespace CheckedSolver

variable {α : Type} [Scalar α] {s : Solver α}

theorem buildGrid?_checked (s : Solver α) :
    s.checked.buildGrid? = some (s.buildTableau.map BasicTableau.grid) := by
  have hstart : s.checked.problem.checkStart? s.checked.method s.checked.tolerance =
      some (s.method.checkStart s.tolerance s.problem) := Parts.checkStart?_eq _ _ _
  have hbasis : findBasis? s.checked.problem.matrix = some s.problem.startingBasis :=
    findBasis?_eq s.problem
  rw [buildGrid?, Solver.buildTableau, hstart]
  cases s.method.checkStart s.tolerance s.problem with
  | error e => rfl
  | ok =>
    show (findBasis? s.checked.problem.matrix).bind _ = _
    rw [hbasis]
    cases s.problem.startingBasis with
    | error e => rfl
    | ok basis => exact Parts.initialGrid?_eq s.problem basis

theorem iterate?_checked {t : BasicTableau α} (hfits : t.Fits) : s.checked.iterate? t.grid =
    some ((s.iterate t).map fun r => r.1.checked) := by
  have hselect : Grid.selectPivot? s.checked.method s.checked.tolerance t.grid = _ :=
    Grid.selectPivot?_grid s.method s.tolerance t
  rw [iterate?, Solver.iterate]
  show (match s.limitReached with | some limit => _ | none => _) = _
  cases s.limitReached with
  | some limit => rfl
  | none =>
    dsimp only
    rw [hselect]
    cases hpivot : s.method.selectPivot s.tolerance t.toTableau with
    | error e => rfl
    | ok found =>
      cases found with
      | none => rfl
      | some entry =>
        obtain ⟨row, column⟩ := entry
        obtain ⟨hr, hc⟩ := Method.selectPivot_lt hpivot
        have hcan : t.CanPivot row column :=
          ⟨by rw [hfits.length_eq]; exact hr, Nat.le_of_lt hr, Nat.le_of_lt hc⟩
        have hoptimal : Grid.isOptimal? s.checked.method s.checked.tolerance
            (t.pivot row column).grid = _ :=
          Grid.isOptimal?_grid s.method s.tolerance (t.pivot row column)
        show (t.grid.pivot? row column).bind _ = _
        rw [Grid.pivot?_grid hcan, Option.bind_some, hoptimal]
        rfl

theorem advance?_checked (h : s.Shaped) :
    s.checked.advance? = some (s.advance.map fun r => r.1.checked) := by
  rw [advance?, Solver.advance, Solver.stage_checked]
  cases hstage : s.stage with
  | initial =>
    show (s.problem.parts.transform? s.method).bind _ = _
    rw [Parts.transform?_eq]
    rfl
  | transformed =>
    show s.checked.buildGrid?.bind _ = _
    rw [buildGrid?_checked]
    cases s.buildTableau with
    | error e => rfl
    | ok t =>
      show (Grid.isOptimal? s.method s.tolerance t.grid).bind _ = _
      rw [Grid.isOptimal?_grid]
      rfl
  | pivoting t iterated =>
    have hfits := (h t (Solver.tableau?_of_pivoting hstage)).1
    dsimp only [Stage.checked]
    rw [Solver.optimal_checked]
    by_cases hoptimal : s.optimal
    · rw [if_pos hoptimal, if_pos hoptimal]
      rfl
    · rw [if_neg hoptimal, if_neg hoptimal]
      exact iterate?_checked hfits
  | complete t => rfl

theorem step?_checked (h : s.Shaped) : s.checked.step? = some s.step.1.checked := by
  rw [step?, Solver.failure_checked]
  cases hfail : s.failure with
  | some e => rw [Solver.step_of_failure (by rw [hfail]; rfl), Option.isSome_some, if_pos rfl]
  | none =>
    rw [Solver.step_fst hfail, Option.isSome_none, if_neg Bool.false_ne_true]
    show s.checked.advance?.bind _ = _
    rw [advance?_checked h]
    cases s.advance <;> rfl

/-! ### runs -/

omit [Scalar α] in
theorem settled_checked (s : Solver α) : s.checked.settled = s.settled := by
  rw [settled, Solver.settled, Solver.currentStep, Solver.failure_checked, Solver.stage_checked]
  cases s.stage with
  | initial => rfl
  | transformed => rfl
  | pivoting t iterated => cases iterated <;> rfl
  | complete t => rfl

theorem run?_checked (h : s.Shaped) (n : Nat) : s.checked.run? n = some (s.run n).1.checked := by
  induction n generalizing s with
  | zero => rfl
  | succ n ih =>
    rw [run?, settled_checked]
    cases hsettled : s.settled with
    | true => rw [if_pos rfl, Solver.run_of_settled hsettled]
    | false =>
      rw [if_neg Bool.false_ne_true, Solver.run_of_not_settled hsettled, step?_checked h]
      exact ih h.step

theorem call?_checked (h : s.Shaped) (c : Call α) :
    s.checked.call? c = some (s.call c).1.checked := by
  cases c with
  | step => exact step?_checked h
  | run n => exact run?_checked h n
  | setTolerance tolerance => rfl
  | setMaxIterations limit => rfl

theorem calls?_checked (h : s.Shaped) (cs : List (Call α)) :
    s.checked.calls? cs = some (s.calls cs).1.checked := by
  induction cs generalizing s with
  | nil => rfl
  | cons c cs ih =>
    rw [calls?, call?_checked h, Solver.calls_cons]
    exact ih (h.calls [c])

/-! ### results -/

theorem solution?_checked (h : s.Shaped) : s.checked.solution? = some s.solution? := by
  rw [solution?, Solver.solution?, Solver.stage_checked]
  cases hstage : s.stage with
  | initial => rfl
  | transformed => rfl
  | pivoting t iterated => rfl
  | complete t =>
    show t.grid.solution?.map some = _
    rw [Grid.solution?_grid (h t (Solver.tableau?_of_complete hstage)).1]
    rfl

theorem snapshot?_checked (h : s.Shaped) :
    s.checked.snapshot? = some (s.snapshot?.map Snapshot.checked) := by
  rw [snapshot?, Solver.snapshot?, Solver.stage_checked]
  cases hstage : s.stage with
  | initial => rfl
  | transformed => rfl
  | pivoting t iterated => rfl
  | complete t =>
    show t.grid.solution?.map (fun solution => some (CheckedSnapshot.solution solution)) = _
    rw [Grid.solution?_grid (h t (Solver.tableau?_of_complete hstage)).1]
    rfl

end CheckedSolver

namespace Solver

variable {α : Type} [Scalar α] {s : Solver α}

/-- Parts are refused, or they are the parts of a problem.  From there on nothing that is done with
checked access is undefined: every chain of reformulations comes to what it comes to for the
problem, and the parts it gives are rectangular; a solver of these does under any calls what the
solver of the problem does, and its solution and its snapshot can be read.  A tableau has one row
and one column more than the problem of the solver, and its basis a column of it for each row. -/
theorem in_range :
    (∀ q : Parts α, q.new? =
      some ((Problem.ofParts q.objective q.sense q.matrix q.rhs q.relations).map Problem.parts)) ∧
    ∀ (p : Problem α) (rs : List Reformulation),
      p.parts.reformulate? rs = some ((p.reformulate rs).map Problem.parts) ∧
      ∀ q, p.reformulate rs = .ok q → q.parts.Rectangular ∧
        ∀ (m : Method) (tolerance : α) (cs : List (Call α)),
          let s := ((start m q tolerance).calls cs).1
          (start m q tolerance).checked.calls? cs = some s.checked ∧
          s.checked.solution? = some s.solution? ∧
          s.checked.snapshot? = some (s.snapshot?.map Snapshot.checked) ∧
          ∀ t, s.tableau? = some t →
            t.rows.length = s.problem.constraintCount + 1 ∧
            (∀ row ∈ t.rows, row.length = s.problem.variableCount + 1) ∧
            t.basis.length = s.problem.constraintCount ∧
            ∀ column ∈ t.basis, column < s.problem.variableCount := by
  refine ⟨Parts.new?_eq, fun p rs => ⟨Parts.reformulate?_eq rs p, fun q _ => ?_⟩⟩
  refine ⟨Parts.rectangular_parts q, fun m tolerance cs => ?_⟩
  have hstart := shaped_start m q tolerance
  have hshaped := hstart.calls cs
  refine ⟨CheckedSolver.calls?_checked hstart cs, CheckedSolver.solution?_checked hshaped,
    CheckedSolver.snapshot?_checked hshaped, fun t ht => ?_⟩
  obtain ⟨hrows, hwidth⟩ := hshaped.length_rows ht
  exact ⟨hrows, hwidth, hshaped.basis_lt ht⟩

/-- the greatest `x + y` with `x + y <= 4` and a row of which no number is known -/
def blankRow : Problem Float :=
  ⟨[1, 1], .maximize, [⟨[1, 1], .lessEqual, 4⟩, ⟨[0 / 0, 0 / 0], .greaterEqual, 0 / 0⟩], by decide⟩

/-- no access fails on numbers that are not any, nor under a tolerance below zero -/
theorem in_range_blankRow :
    ∃ q t, blankRow.reformulate [.prepare, .standard] = .ok q ∧
      ((start .primal q (-1)).checked.calls? [.run 9]).isSome ∧
      ((start .primal q (-1)).calls [.run 9]).1.tableau? = some t ∧
      t.rows.length = 3 ∧ (∀ row ∈ t.rows, row.length = 5) ∧
      t.basis.length = 2 ∧ ∀ column ∈ t.basis, column < 4 := by
  have hform : (blankRow.reformulate [.prepare, .standard]).toOption.any fun q =>
      let s := ((start .primal q (-1)).calls [.run 9]).1
      s.tableau?.isSome && (s.problem.constraintCount == 2 && s.problem.variableCount == 4) := by
    decide +kernel
  cases hq : blankRow.reformulate [.prepare, .standard] with
  | error e =>
    rw [hq] at hform
    cases hform
  | ok q =>
    simp only [hq, Except.toOption, Option.any_some, Bool.and_eq_true, beq_iff_eq] at hform
    obtain ⟨hsome, hn, hm⟩ := hform
    obtain ⟨t, ht⟩ := Option.isSome_iff_exists.1 hsome
    obtain ⟨hcalls, -, -, hshape⟩ :=
      ((in_range.2 blankRow [.prepare, .standard]).2 q hq).2 .primal (-1) [.run 9]
    obtain ⟨hrows, hwidth, hlength, hlt⟩ := hshape t ht
    rw [hn] at hrows hlength
    rw [hm] at hwidth hlt
    exact ⟨q, t, rfl, by rw [hcalls]; rfl, ht, hrows, hwidth, hlength, hlt⟩

end Solver

end LinearProgram
