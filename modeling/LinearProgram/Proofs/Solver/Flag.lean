import LinearProgram.Proofs.Solver.Limit
import LinearProgram.Proofs.Tableau.Candidates

/-!
# The record of the test

A solver tests its tableau once, when it gets it, and from then on reads the record.  Only where
nothing is left to pivot on does it write the record without a test.  The test and the search for
a pivot read the same entries but ask them different questions, so such a record need not be what
the test would say.

* `Solver.Flagged`       what the record says of the tableau;
* `flagged_calls`        that it says so after any calls at one tolerance;
* `Flagged.move_cases`   a move out of a tableau that is not recorded to be optimal.
-/

namespace LinearProgram

namespace Solver

variable {α : Type} [Scalar α] {m : Method} {p : Problem α} {tolerance : α}
  {s s' : Solver α} {t : BasicTableau α}

/-! ### the record -/

/-- The record is that of the test, or says that the tableau is optimal where nothing is left to
pivot on; and a solve completes only on a record that says so. -/
structure Flagged (m : Method) (tolerance : α) (s : Solver α) : Prop where
  method_eq : s.method = m
  tolerance_eq : s.tolerance = tolerance
  before : s.tableau? = none → s.optimal = false
  record : ∀ t, s.tableau? = some t → s.optimal = m.isOptimal tolerance t.toTableau ∨
    s.optimal = true ∧ m.selectPivot tolerance t.toTableau = .ok none
  complete : ∀ t, s.stage = .complete t → s.optimal = true

theorem flagged_start (m : Method) (p : Problem α) (tolerance : α) :
    Flagged m tolerance (start m p tolerance) := ⟨rfl, rfl, fun _ => rfl, nofun, nofun⟩

theorem Flagged.transition (h : Transition s s') (hs : Flagged m tolerance s) :
    Flagged m tolerance s' := by
  obtain ⟨rfl, rfl, hbefore, hrecord, hcomplete⟩ := hs
  cases h with
  | stay => exact ⟨rfl, rfl, hbefore, hrecord, hcomplete⟩
  | fail => exact ⟨rfl, rfl, hbefore, hrecord, hcomplete⟩
  | transform hstage =>
    have hnone : s.tableau? = none := by rw [tableau?, hstage]; rfl
    exact ⟨rfl, rfl, fun _ => hbefore hnone, (fun _ ht => by cases ht), fun _ ht => by cases ht⟩
  | build =>
    refine ⟨rfl, rfl, (fun ht => by cases ht), fun t ht => ?_, fun _ ht => by cases ht⟩
    obtain rfl := Option.some.inj ht
    exact Or.inl rfl
  | finish hstage hoptimal =>
    refine ⟨rfl, rfl, (fun ht => by cases ht), fun t ht => ?_, fun _ _ => hoptimal⟩
    obtain rfl := Option.some.inj ht
    exact hrecord _ (tableau?_of_pivoting hstage)
  | exhaust _ _ _ hnone =>
    refine ⟨rfl, rfl, (fun ht => by cases ht), fun t ht => ?_, fun _ ht => by cases ht⟩
    obtain rfl := Option.some.inj ht
    exact Or.inr ⟨rfl, hnone⟩
  | pivot =>
    refine ⟨rfl, rfl, (fun ht => by cases ht), fun t ht => ?_, fun _ ht => by cases ht⟩
    obtain rfl := Option.some.inj ht
    exact Or.inl rfl

theorem Flagged.withTolerance (hs : Flagged m tolerance s) : s.withTolerance tolerance = s := by
  rw [← hs.tolerance_eq]
  rfl

theorem Flagged.withMaxIterations (hs : Flagged m tolerance s) (limit : Option Nat) :
    Flagged m tolerance (s.withMaxIterations limit) :=
  ⟨hs.method_eq, hs.tolerance_eq, hs.before, hs.record, hs.complete⟩

theorem flagged_calls {cs : List (Call α)} (hcs : ∀ t, .setTolerance t ∈ cs → t = tolerance) :
    Flagged m tolerance ((start m p tolerance).calls cs).1 := by
  refine calls_transition (fun s s' hstep hs => hs.transition hstep) (fun s t ht hs => ?_)
    (fun s limit hs => hs.withMaxIterations limit) (flagged_start m p tolerance)
  rw [hcs t ht, hs.withTolerance]
  exact hs

/-! ### the next move -/

/-- A move that succeeds, out of a tableau that is not recorded to be optimal: nothing is left to
pivot on, or it is one pivot. -/
theorem Flagged.move_cases (hs : Flagged m tolerance s) (ht : s.tableau? = some t)
    (hoptimal : s.optimal = false) {step : Step} (h : s.move.2 = .ok step) :
    m.selectPivot tolerance t.toTableau = .ok none ∨
    ∃ row column, m.selectPivot tolerance t.toTableau = .ok (some (row, column)) ∧
      s.move.1.tableau? = some (t.pivot row column) ∧
      s.move.1.iterations = s.iterations + 1 := by
  obtain ⟨rfl, rfl, -, -, hcomplete⟩ := hs
  have hmove : s.move = (s.move.1, .ok step) := Prod.ext rfl h
  obtain ⟨hrunning, hnone⟩ := failure_of_move_ok hmove
  have hstep := transition_of_move hmove
  generalize s.move.1 = next at hstep hnone
  cases hstep with
  | stay hsettled =>
    have hopen : s.settled = false := by
      refine not_settled (by rw [hrunning]; exact Bool.false_ne_true) fun u hu => ?_
      exact absurd (hcomplete u hu) (Bool.eq_false_iff.1 hoptimal)
    rw [hopen] at hsettled
    cases hsettled
  | fail => cases hnone
  | transform hstage => rw [tableau?, hstage] at ht; cases ht
  | build hstage => rw [tableau?, hstage] at ht; cases ht
  | finish _ hopt => rw [hoptimal] at hopt; cases hopt
  | exhaust hstage _ _ hselect =>
    obtain rfl := Option.some.inj (ht.symm.trans (tableau?_of_pivoting hstage))
    exact Or.inl hselect
  | pivot hstage _ _ hselect =>
    obtain rfl := Option.some.inj (ht.symm.trans (tableau?_of_pivoting hstage))
    exact Or.inr ⟨_, _, hselect, rfl, rfl⟩

end Solver

end LinearProgram
