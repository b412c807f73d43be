import LinearProgram.Solver

/-!
# Calls on a solver

What can be done to a live solver, and the effect of a sequence of calls: the solver after it and
everything reported on the way.
-/

namespace LinearProgram

inductive Call (α : Type) where
  | step
  /-- so many steps at most, until the solve is settled -/
  | run (steps : Nat)
  | setTolerance (tolerance : α)
  | setMaxIterations (limit : Option Nat)

namespace Solver

variable {α : Type} [Scalar α]

def call (s : Solver α) : Call α → Solver α × List (Event α)
  | .step => s.step
  | .run steps => s.run steps
  | .setTolerance tolerance => (s.withTolerance tolerance, [])
  | .setMaxIterations limit => (s.withMaxIterations limit, [])

/-- one call after another -/
def calls (s : Solver α) : List (Call α) → Solver α × List (Event α)
  | [] => (s, [])
  | c :: rest =>
    let (next, events) := s.call c
    let (last, more) := next.calls rest
    (last, events ++ more)

theorem calls_cons (s : Solver α) (c : Call α) (rest : List (Call α)) :
    s.calls (c :: rest) =
      (((s.call c).1.calls rest).1, (s.call c).2 ++ ((s.call c).1.calls rest).2) := rfl

theorem calls_append (s : Solver α) (cs ds : List (Call α)) :
    s.calls (cs ++ ds) =
      (((s.calls cs).1.calls ds).1, (s.calls cs).2 ++ ((s.calls cs).1.calls ds).2) := by
  induction cs generalizing s with
  | nil => rfl
  | cons c cs ih => simp only [List.cons_append, calls_cons, ih, List.append_assoc]

/-- What each step keeps, a run keeps. -/
theorem run_induction {motive : Solver α → Prop} (hstep : ∀ s, motive s → motive s.step.1)
    {s : Solver α} (h : motive s) (n : Nat) : motive (s.run n).1 := by
  induction n generalizing s with
  | zero => exact h
  | succ n ih =>
    rw [run]
    split
    · exact h
    · exact ih (hstep s h)

/-- What holds at the start and is kept by each step and each of the changes of a setting holds
after the calls. -/
theorem calls_induction {motive : Solver α → Prop} {cs : List (Call α)}
    (hstep : ∀ s, motive s → motive s.step.1)
    (htol : ∀ s t, .setTolerance t ∈ cs → motive s → motive (s.withTolerance t))
    (hlimit : ∀ s l, motive s → motive (s.withMaxIterations l)) {s : Solver α} (h : motive s) :
    motive (s.calls cs).1 := by
  induction cs generalizing s with
  | nil => exact h
  | cons c cs ih =>
    rw [calls_cons]
    refine ih (fun s t ht => htol s t (List.mem_cons_of_mem _ ht)) ?_
    cases c with
    | step => exact hstep s h
    | run n => exact run_induction hstep h n
    | setTolerance t => exact htol s t List.mem_cons_self h
    | setMaxIterations l => exact hlimit s l h

end Solver

end LinearProgram
