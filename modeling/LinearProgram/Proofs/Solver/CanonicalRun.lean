import LinearProgram.Proofs.Solver.Transition
import LinearProgram.Proofs.Tableau.Candidates
import LinearProgram.Proofs.Tableau.CanonicalForm

/-!
# Canonical form along a run

A run starts in canonical form and stays there as long as it pivots in finite tableaux.  Nothing
is said about the size of the numbers: a pivot may overflow, and it is only the next one that
needs its tableau finite.

* `Solver.CanonicalAt.transition`   one transition;
* `Solver.CanonicalAt.after`        any number of steps.
-/

namespace LinearProgram

open ExactUnits

namespace Solver

variable {α : Type} [Scalar α]

/-- the next step pivots in this tableau -/
def PivotsIn (s : Solver α) (t : BasicTableau α) : Prop :=
  s.tableau? = some t ∧ s.step.1.iterations = s.iterations + 1

variable [ExactUnits α]

structure CanonicalAt (s : Solver α) : Prop where
  objective : ∀ a ∈ s.problem.objective, IsFinite a
  tolerance : 0 ≤ s.tolerance
  canonical : ∀ t, s.tableau? = some t → t.Canonical

theorem isFinite_objective_transform (m : Method) {p : Problem α}
    (h : ∀ a ∈ p.objective, IsFinite a) : ∀ a ∈ (m.transform p).objective, IsFinite a := by
  intro a ha
  rw [m.objective_transform, List.mem_append] at ha
  rcases ha with ha | ha
  · exact h a ha
  · rw [List.eq_of_mem_replicate ha]
    exact isFinite_of_zero zero_beq_zero

theorem Transition.objective_finite {s s' : Solver α} (h : Transition s s')
    (hs : ∀ a ∈ s.problem.objective, IsFinite a) : ∀ a ∈ s'.problem.objective, IsFinite a := by
  cases h with
  | transform => exact isFinite_objective_transform s.method hs
  | _ => exact hs

theorem CanonicalAt.transition {s s' : Solver α} (h : Transition s s') (hs : s.CanonicalAt)
    (hfinite : ∀ t, s.tableau? = some t → s'.iterations = s.iterations + 1 → t.IsFinite) :
    s'.CanonicalAt := by
  refine ⟨h.objective_finite hs.objective, h.tolerance_eq ▸ hs.tolerance, fun u hu => ?_⟩
  obtain hold | ⟨basis, -, -, hbasis, rfl⟩ | ⟨t, row, column, hold, hsome, hnext, rfl⟩ :=
    h.tableau_cases hu
  · exact hs.canonical u hold
  · exact Problem.canonical_pricedOut hbasis hs.objective
  · obtain ⟨hrow, hcolumn⟩ := Method.selectPivot_lt hsome
    exact (hs.canonical t hold).pivot (hfinite t hold hnext) hrow hcolumn
      (Method.pivot_ne_zero hsome hs.tolerance)

theorem CanonicalAt.after {s : Solver α} (hs : s.CanonicalAt) (n : Nat)
    (hfinite : ∀ k < n, ∀ t, (s.after k).PivotsIn t → t.IsFinite) : (s.after n).CanonicalAt := by
  induction n with
  | zero => exact hs
  | succ n ih =>
    have hn := ih fun k hk => hfinite k (Nat.lt_succ_of_lt hk)
    exact hn.transition (transition_step _) fun t ht hnext =>
      hfinite n (Nat.lt_succ_self n) t ⟨ht, hnext⟩

end Solver

end LinearProgram
