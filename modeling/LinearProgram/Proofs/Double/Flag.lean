import LinearProgram.Proofs.Double.Total
import LinearProgram.Proofs.Solver.Flag

/-!
# The record of the test in doubles

Of a NaN neither holds: it is not at least the tolerance negated, and it is not below it.  So with
a NaN and no entry to pivot on, the test fails and the search is at its end, and the record says
that the tableau is optimal.  This is the only way in which the record and the test can differ.

* `Method.Undecided`   the tableaux on which they differ;
* `flag_coherent`      the record along every run.
-/

namespace LinearProgram

/-- The test fails on account of a NaN, and nothing is left to pivot on. -/
structure Method.Undecided (m : Method) (tolerance : Float) (t : Tableau Float) : Prop where
  fails : m.isOptimal tolerance t = false
  exists_isNaN : ∃ a ∈ m.watched t, a.isNaN
  not_below : ∀ a ∈ m.watched t, ¬ a < -tolerance

theorem Method.undecided_of_selectPivot {m : Method} {tolerance : Float} {t : Tableau Float}
    (htol : tolerance.isNaN = false) (hnone : m.selectPivot tolerance t = .ok none)
    (hfails : m.isOptimal tolerance t = false) : m.Undecided tolerance t := by
  have hbelow := selectPivot_eq_none_iff.1 hnone
  refine ⟨hfails, ?_, hbelow⟩
  by_contra hnumbers
  have htest : m.isOptimal tolerance t := isOptimal_iff_watched.2 fun a ha => by
    have hnumber : a.isNaN = false := Bool.eq_false_iff.2 fun hnan => hnumbers ⟨a, ha, hnan⟩
    have hneg : (-tolerance).isNaN = false := (Double.isNaN_neg _).trans htol
    exact (Double.not_lt_iff_le hnumber hneg).1 (hbelow a ha)
  rw [hfails] at htest
  cases htest

namespace Solver

/-- Before there is a tableau the record says that it is not optimal.  From then on it says what
the test says, unless the tableau is undecided; and a solve completes only on a tableau that passes
the test or is undecided.  A move that succeeds out of a tableau that is not recorded to be optimal
is one pivot, unless the tableau is undecided. -/
theorem flag_coherent (m : Method) (p : Problem Float) {tolerance : Float}
    (htol : tolerance.isNaN = false) {cs : List (Call Float)}
    (hcs : ∀ t, .setTolerance t ∈ cs → t = tolerance) :
    let s := ((start m p tolerance).calls cs).1
    (s.tableau? = none → s.optimal = false) ∧
    (∀ t, s.tableau? = some t → s.optimal = m.isOptimal tolerance t.toTableau ∨
      s.optimal = true ∧ m.Undecided tolerance t.toTableau) ∧
    (∀ t, s.stage = .complete t →
      m.isOptimal tolerance t.toTableau = true ∨ m.Undecided tolerance t.toTableau) ∧
    ∀ t step, s.tableau? = some t → s.optimal = false → s.move.2 = .ok step →
      m.Undecided tolerance t.toTableau ∨
      ∃ row column, m.selectPivot tolerance t.toTableau = .ok (some (row, column)) ∧
        s.move.1.tableau? = some (t.pivot row column) ∧
        s.move.1.iterations = s.iterations + 1 := by
  intro s
  have hs : Flagged m tolerance s := flagged_calls hcs
  have hrecord : ∀ t, s.tableau? = some t → s.optimal = m.isOptimal tolerance t.toTableau ∨
      s.optimal = true ∧ m.Undecided tolerance t.toTableau := by
    intro t ht
    obtain hsame | ⟨hoptimal, hnone⟩ := hs.record t ht
    · exact Or.inl hsame
    · cases htest : m.isOptimal tolerance t.toTableau with
      | true => exact Or.inl hoptimal
      | false => exact Or.inr ⟨hoptimal, Method.undecided_of_selectPivot htol hnone htest⟩
  refine ⟨hs.before, hrecord, fun t hstage => ?_, fun t step ht hoptimal hmove => ?_⟩
  · obtain hsame | ⟨-, hundecided⟩ := hrecord t (tableau?_of_complete hstage)
    · exact Or.inl (hsame.symm.trans (hs.complete t hstage))
    · exact Or.inr hundecided
  · obtain hnone | hpivot := hs.move_cases ht hoptimal hmove
    · obtain hsame | ⟨hopt, -⟩ := hrecord t ht
      · exact Or.inl (Method.undecided_of_selectPivot htol hnone (hsame.symm.trans hoptimal))
      · rw [hoptimal] at hopt
        cases hopt
    · exact Or.inr hpivot

/-- the greatest `2x + z` with `x / 100000 + 1e305 y <= 0` and `x + 2z <= 2`: of these finite
numbers two pivots make a NaN -/
def lateNaN : Problem Float :=
  ⟨[2, 0, 1], .maximize, [⟨[1e-5, 1e305, 0], .lessEqual, 0⟩, ⟨[1, 0, 2], .lessEqual, 2⟩], by decide⟩

/-- After one pivot the record is that of the test, and the next move is another.  The solve
completes on a tableau that does not pass the test. -/
theorem flag_coherent_lateNaN :
    (let s := ((start .primal lateNaN 0).calls [.run 3]).1
     s.iterations = 1 ∧ s.optimal = false ∧ s.move.1.iterations = s.iterations + 1) ∧
    (let s := ((start .primal lateNaN 0).calls [.run 6]).1
     ∃ t, s.stage = .complete t ∧ s.optimal = true ∧ Method.primal.Undecided 0 t.toTableau) := by
  have htol : (0 : Float).isNaN = false := by decide +kernel
  have hkeep : ∀ n t, .setTolerance t ∈ [Call.run n] → t = (0 : Float) :=
    fun n t ht => by cases List.mem_singleton.1 ht
  refine ⟨?_, ?_⟩
  · obtain ⟨-, -, -, hmove⟩ := flag_coherent .primal lateNaN htol (hkeep 3)
    intro s
    have hoptimal : s.optimal = false := by decide +kernel
    have hok : s.move.2 = .ok .iteration := by decide +kernel
    have hbelow : s.tableau?.any fun t => (Method.primal.watched t.toTableau).any (· < -0) := by
      decide +kernel
    obtain ⟨t, ht, hbelow⟩ := (Option.any_eq_true _ _).1 hbelow
    obtain ⟨a, ha, hlt⟩ := List.any_eq_true.1 hbelow
    refine ⟨by decide +kernel, hoptimal, ?_⟩
    obtain hundecided | ⟨row, column, -, -, hone⟩ := hmove t _ ht hoptimal hok
    · exact absurd (of_decide_eq_true hlt) (hundecided.not_below a ha)
    · simpa only [s] using hone
  · intro s
    obtain ⟨-, -, hcomplete, -⟩ := flag_coherent .primal lateNaN htol (hkeep 6)
    have hend : s.currentStep = .complete := by decide +kernel
    have htest : s.tableau?.any fun t => !Method.primal.isOptimal 0 t.toTableau := by
      decide +kernel
    obtain ⟨t, hstage⟩ := exists_complete_of_currentStep hend
    rw [tableau?_of_complete hstage, Option.any_some, Bool.not_eq_true'] at htest
    refine ⟨t, hstage, by decide +kernel, (hcomplete t hstage).resolve_left ?_⟩
    exact Bool.eq_false_iff.1 htest

end Solver

end LinearProgram
