import LinearProgram.Proofs.Solver.Flag
import LinearProgram.Proofs.Solver.SameProblem
import LinearProgram.Proofs.Tableau.Direction
import LinearProgram.Proofs.Tableau.RatioTest

/-!
# What an answer rests on

A solve answers with the basic solution of its last tableau, and it completes only after the test
of its method has held in that tableau at the tolerance of the solve.

* `Solver.Tested`      the record of the test is right;
* `exists_answer`      the tableau behind an answer;
* `calls_kept`         what holds after any calls that leave the tolerance alone.
-/

namespace LinearProgram

namespace Solver

/-- the tolerance has not been changed, and the record of the last test is right -/
structure Tested (tolerance : Rat) (s : Solver Rat) : Prop where
  tolerance_eq : s.tolerance = tolerance
  test : ∀ t, s.tableau? = some t → s.optimal = true → s.method.isOptimal tolerance t.toTableau
  complete : ∀ t, s.stage = .complete t → s.optimal = true

variable {m : Method} {p : Problem Rat} {tolerance : Rat}

theorem Flagged.tested {s : Solver Rat} (hs : Flagged m tolerance s) : Tested tolerance s where
  tolerance_eq := hs.tolerance_eq
  test t ht hoptimal := by
    rw [hs.method_eq]
    obtain hsame | ⟨-, hnone⟩ := hs.record t ht
    · exact hsame.symm.trans hoptimal
    · exact Method.isOptimal_of_selectPivot hnone
  complete := hs.complete

theorem complete_of_result {s : Solver Rat} {answer : Solution Rat}
    (h : s.result? = some (.ok answer)) : ∃ t, s.stage = .complete t ∧ answer = t.solution := by
  rw [result?, solution?] at h
  cases hstage : s.stage with
  | complete t =>
    rw [hstage] at h
    exact ⟨t, rfl, (Except.ok.inj (Option.some.inj h)).symm⟩
  | _ =>
    rw [hstage] at h
    obtain ⟨e, -, he⟩ := Option.map_eq_some_iff.1 h
    cases he

/-- behind an answer stands a tableau that represents the transformed problem and passes the test
of the method -/
theorem exists_answer {s : Solver Rat} (hs : Faithful m p s) (htested : Tested tolerance s)
    {answer : Solution Rat} (h : s.result? = some (.ok answer)) :
    ∃ t, s.tableau? = some t ∧ answer = t.solution ∧ t.Represents (m.transform p) ∧
      m.isOptimal tolerance t.toTableau := by
  obtain ⟨t, hstage, hanswer⟩ := complete_of_result h
  have ht : s.tableau? = some t := by
    rw [tableau?, hstage]
    rfl
  have htest := htested.test t ht (htested.complete t hstage)
  rw [hs.method_eq] at htest
  exact ⟨t, ht, hanswer, hs.represents t ht, htest⟩

/-! ### calls at one tolerance -/

/-- the calls leave the tolerance alone, or set it to what it is -/
def KeepTolerance (tolerance : Rat) (cs : List (Call Rat)) : Prop :=
  ∀ t, .setTolerance t ∈ cs → t = tolerance

theorem keepTolerance_run (tolerance : Rat) (limit : Option Nat) (n : Nat) :
    KeepTolerance tolerance [.setMaxIterations limit, .run n] := by
  intro t ht
  simp at ht

section
variable {cs : List (Call Rat)}

theorem faithful_calls (htol : 0 ≤ tolerance) (hcs : KeepTolerance tolerance cs) :
    Faithful m p ((start m p tolerance).calls cs).1 :=
  (faithful_start m p htol).calls fun t ht => by rw [hcs t ht]; exact htol

theorem Faithful.withMaxIterations {s : Solver Rat} (hs : Faithful m p s) (limit : Option Nat) :
    Faithful m p (s.withMaxIterations limit) :=
  ⟨hs.method_eq, hs.problem_eq, hs.tolerance_nonneg, hs.represents⟩

theorem tested_calls (hcs : KeepTolerance tolerance cs) :
    Tested tolerance ((start m p tolerance).calls cs).1 := (flagged_calls hcs).tested

/-- what each step keeps at one tolerance, and a change of the limit keeps, holds after any calls -/
theorem calls_kept {motive : Solver Rat → Prop} (htol : 0 ≤ tolerance)
    (hcs : KeepTolerance tolerance cs)
    (h : ∀ s, Faithful m p s → Tested tolerance s → motive s → motive s.step.1)
    (hlimit : ∀ s limit, motive s → motive (s.withMaxIterations limit))
    (hstart : motive (start m p tolerance)) : motive ((start m p tolerance).calls cs).1 := by
  suffices hcalls : Faithful m p ((start m p tolerance).calls cs).1 ∧
      Flagged m tolerance ((start m p tolerance).calls cs).1 ∧
        motive ((start m p tolerance).calls cs).1 from hcalls.2.2
  refine calls_induction (motive := fun s => Faithful m p s ∧ Flagged m tolerance s ∧ motive s)
    (fun s hs => ?_) (fun s t ht hs => ?_) (fun s limit hs => ?_)
    ⟨faithful_start m p htol, flagged_start m p tolerance, hstart⟩
  · have hstep := transition_step s
    exact ⟨hs.1.transition hstep, hs.2.1.transition hstep, h s hs.1 hs.2.1.tested hs.2.2⟩
  · rw [hcs t ht, hs.2.1.withTolerance]
    exact hs
  · exact ⟨hs.1.withMaxIterations limit, hs.2.1.withMaxIterations limit, hlimit s limit hs.2.2⟩

end

/-! ### one run with a limit -/

theorem faithful_run (htol : 0 ≤ tolerance) (limit : Option Nat) (n : Nat) :
    Faithful m p (((start m p tolerance).withMaxIterations limit).run n).1 :=
  faithful_calls htol (keepTolerance_run tolerance limit n)

theorem tested_run (limit : Option Nat) (n : Nat) :
    Tested tolerance (((start m p tolerance).withMaxIterations limit).run n).1 :=
  tested_calls (keepTolerance_run tolerance limit n)

end Solver

end LinearProgram
