import LinearProgram.Solver

/-!
# The solver in place

A transition works on a solver that has been emptied of its stage: it gets the stage to read,
writes the other fields as it goes, and returns the stage to put in.  What is written before a
failure stays written, so that a failed transition leaves the solver as it was only if it hands
back the stage it got and has written nothing.

* `Solver.move`    one transition, with the step that it reached or the failure;
* `Solver.solve`   transitions until there is a solution, or a failure; `Solver.solveEvents` is
                   what they report.
-/

namespace LinearProgram

namespace Solver

variable {α : Type} [Scalar α]

/-- the first tableau; its test is written before it is returned -/
def buildInPlace (s : Solver α) : Solver α × Except (Failure α) (BasicTableau α) :=
  match s.method.checkStart s.tolerance s.problem with
  | .error e => (s, .error e)
  | .ok () =>
    match s.problem.startingBasis with
    | .error e => (s, .error e)
    | .ok basis =>
      match s.problem.initialTableau basis with
      | .error e => (s, .error e)
      | .ok t => ({ s with optimal := s.method.isOptimal s.tolerance t.toTableau }, .ok t)

/-- one pivot of a tableau that is changed in place too -/
def iterateInPlace (s : Solver α) (t : BasicTableau α) :
    Solver α × BasicTableau α × Except (Failure α) Unit :=
  match s.limitReached with
  | some limit => (s, t, .error (.iterationLimit limit))
  | none =>
    match s.method.selectPivot s.tolerance t.toTableau with
    | .error e => (s, t, .error e)
    | .ok none => ({ s with optimal := true }, t, .ok ())
    | .ok (some (row, column)) =>
      let next := t.pivot row column
      ({ s with
          iterations := s.iterations + 1
          optimal := s.method.isOptimal s.tolerance next.toTableau }, next, .ok ())

/-- one transition from the stage that was taken out of the solver, with the stage to put in -/
def advanceFrom (s : Solver α) : Stage α → Solver α × Stage α × Except (Failure α) Unit
  | .initial => ({ s with problem := s.method.transform s.problem }, .transformed, .ok ())
  | .transformed =>
    match s.buildInPlace with
    | (left, .ok t) => (left, .pivoting t false, .ok ())
    | (left, .error e) => (left, .transformed, .error e)
  | .pivoting t iterated =>
    if s.optimal then (s, .complete t, .ok ())
    else
      let (left, next, result) := s.iterateInPlace t
      (left, .pivoting next (iterated || result.isOk), result)
  | .complete t => (s, .complete t, .ok ())

/-- the solver without its stage: the first one stands in its place -/
def emptied (s : Solver α) : Solver α := { s with stage := .initial }

/-- One transition.  The stage is taken out and another put in, whatever the outcome; a failure is
recorded, and from then on it is the answer. -/
def move (s : Solver α) : Solver α × Except (Failure α) Step :=
  match s.failure with
  | some e => (s, .error e)
  | none =>
    let (left, stage, result) := s.emptied.advanceFrom s.stage
    let next := { left with stage := stage }
    match result with
    | .ok () => (next, .ok next.currentStep)
    | .error e => ({ next with failure := some e }, .error e)

/-- The solution, or the failure of the move that bars it; `none` if so many rounds are too few. -/
def solve : Nat → Solver α → Solver α × Option (Except (Failure α) (Solution α))
  | 0, s => (s, none)
  | n + 1, s =>
    match s.solution? with
    | some solution => (s, some (.ok solution))
    | none =>
      match s.move with
      | (next, .ok _) => solve n next
      | (next, .error e) => (next, some (.error e))

/-- What the moves of a solve report; a move reports what the step does. -/
def solveEvents : Nat → Solver α → List (Event α)
  | 0, _ => []
  | n + 1, s =>
    match s.solution? with
    | some _ => []
    | none =>
      match s.move with
      | (next, .ok _) => s.step.2 ++ solveEvents n next
      | (_, .error _) => s.step.2

end Solver

end LinearProgram
