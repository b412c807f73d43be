import LinearProgram.Problem.StandardForm
import LinearProgram.Solution
import LinearProgram.Solver.Event
import LinearProgram.Tableau.Initial
import LinearProgram.UnitColumn

/-!
# The step-by-step solver

A solver holds a problem, the stage that its solve has reached, and the failure that stopped it,
if one did.  `Solver.advance` is one transition, `Solver.step` records its outcome, and
`Solver.run` takes steps until the solve is settled.

* `step_of_failure`   a failed solver stays as it is and reports nothing;
* `run_of_settled`    a settled solver stays as it is.
-/

namespace LinearProgram

/-- What a solve holds at each stage. -/
inductive Stage (α : Type) where
  | initial
  | transformed
  /-- `iterated` says whether the tableau has been worked on since it was built -/
  | pivoting (tableau : BasicTableau α) (iterated : Bool)
  | complete (tableau : BasicTableau α)

structure Solver (α : Type) where
  method : Method
  /-- the problem as given, or as transformed once the first step is taken -/
  problem : Problem α
  stage : Stage α
  /-- the result of the last test for optimality -/
  optimal : Bool
  /-- the number of pivots so far -/
  iterations : Nat
  tolerance : α
  /-- the number of pivots to stop at, if there is one -/
  maxIterations : Option Nat
  failure : Option (Failure α)

/-- what the last step produced, for display -/
inductive Snapshot (α : Type) where
  | problem (problem : Problem α)
  | tableau (tableau : BasicTableau α)
  | solution (solution : Solution α)

namespace Stage

variable {α : Type}

def step : Stage α → Step
  | initial => .init
  | transformed => .transform
  | pivoting _ false => .buildTableau
  | pivoting _ true => .iteration
  | complete _ => .complete

def tableau? : Stage α → Option (BasicTableau α)
  | initial => none
  | transformed => none
  | pivoting t _ => some t
  | complete t => some t

end Stage

namespace Solver

variable {α : Type}

/-- a solver that has not started, with no limit on its pivots -/
def start (method : Method) (problem : Problem α) (tolerance : α) : Solver α :=
  ⟨method, problem, .initial, false, 0, tolerance, none, none⟩

def withTolerance (s : Solver α) (tolerance : α) : Solver α := { s with tolerance := tolerance }

def withMaxIterations (s : Solver α) (limit : Option Nat) : Solver α :=
  { s with maxIterations := limit }

def currentStep (s : Solver α) : Step := s.stage.step

def tableau? (s : Solver α) : Option (BasicTableau α) := s.stage.tableau?

/-- the basic column of every row; empty until there is a tableau -/
def basis (s : Solver α) : List Nat := (s.tableau?.map (·.basis)).getD []

/-- no step will change the solver any more -/
def settled (s : Solver α) : Bool := s.failure.isSome || s.currentStep == .complete

variable [Scalar α]

def solution? (s : Solver α) : Option (Solution α) :=
  match s.stage with
  | .complete t => some t.solution
  | _ => none

/-- what the last step produced; nothing before the first one -/
def snapshot? (s : Solver α) : Option (Snapshot α) :=
  match s.stage with
  | .initial => none
  | .transformed => some (.problem s.problem)
  | .pivoting t _ => some (.tableau t)
  | .complete t => some (.solution t.solution)

/-- the outcome of a settled solve -/
def result? (s : Solver α) : Option (Except (Failure α) (Solution α)) :=
  match s.solution? with
  | some solution => some (.ok solution)
  | none => s.failure.map .error

/-! ### transitions -/

/-- from the transformed problem to its first tableau -/
def buildTableau (s : Solver α) : Except (Failure α) (BasicTableau α) :=
  match s.method.checkStart s.tolerance s.problem with
  | .error e => .error e
  | .ok () =>
    match s.problem.startingBasis with
    | .error e => .error e
    | .ok basis => s.problem.initialTableau basis

def limitReached (s : Solver α) : Option Nat := s.maxIterations.filter (· ≤ s.iterations)

/-- One pivot, unless the limit is reached.  With nowhere left to pivot the tableau counts as
optimal. -/
def iterate (s : Solver α) (t : BasicTableau α) :
    Except (Failure α) (Solver α × List (Event α)) :=
  match s.limitReached with
  | some limit => .error (.iterationLimit limit)
  | none =>
    match s.method.selectPivot s.tolerance t.toTableau with
    | .error e => .error e
    | .ok none => .ok ({ s with stage := .pivoting t true, optimal := true }, [])
    | .ok (some (row, column)) =>
      let next := t.pivot row column
      .ok ({ s with
          stage := .pivoting next true
          iterations := s.iterations + 1
          optimal := s.method.isOptimal s.tolerance next.toTableau },
        [.pivotChosen s.method row column, .pivoted (s.iterations + 1) next.toTableau])

/-- One transition, with what it reports. -/
def advance (s : Solver α) : Except (Failure α) (Solver α × List (Event α)) :=
  match s.stage with
  | .initial =>
    let p := s.method.transform s.problem
    .ok ({ s with problem := p, stage := .transformed },
      [.toEqualities s.problem p])
  | .transformed =>
    match s.buildTableau with
    | .error e => .error e
    | .ok t =>
      .ok ({ s with
          stage := .pivoting t false
          optimal := s.method.isOptimal s.tolerance t.toTableau },
        [.initialTableau t.toTableau])
  | .pivoting t _ => if s.optimal then .ok ({ s with stage := .complete t }, []) else s.iterate t
  | .complete _ => .ok (s, [])

/-- One step: a transition, or the record of the failure that bars it.  After a failure no step
does anything. -/
def step (s : Solver α) : Solver α × List (Event α) :=
  if s.failure.isSome then (s, [])
  else
    match s.advance with
    | .error e => ({ s with failure := some e }, [.failed s.method s.currentStep e])
    | .ok (next, events) =>
      if next.currentStep = s.currentStep then (next, events)
      else (next, events ++ [.stepped s.method s.currentStep next.currentStep])

/-- At most so many steps, until the solve is settled. -/
def run : Nat → Solver α → Solver α × List (Event α)
  | 0, s => (s, [])
  | n + 1, s =>
    if s.settled then (s, [])
    else
      let (next, events) := s.step
      let (last, more) := run n next
      (last, events ++ more)

theorem step_of_failure {s : Solver α} (h : s.failure.isSome) : s.step = (s, []) := by
  rw [step, if_pos h]

theorem run_of_settled {s : Solver α} (h : s.settled) (n : Nat) : run n s = (s, []) := by
  cases n with
  | zero => rfl
  | succ n => rw [run, if_pos h]

end Solver

end LinearProgram
