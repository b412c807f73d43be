import LinearProgram.Proofs.Double.Units
import LinearProgram.Proofs.Solver.CanonicalRun

/-!
# Canonical form in doubles

With doubles the basic columns of a run are ones and zeros without any rounding, whatever has
been rounded beside them.

* `canonical_after_double`   any number of steps, as long as the pivots were in finite tableaux.
-/

namespace LinearProgram

namespace Solver

/-- In doubles every tableau of a run is exactly canonical, as long as the tableaux before it in
which the run pivots are finite. -/
theorem canonical_after_double (m : Method) (p : Problem Float) {tolerance : Float}
    (htol : 0 ≤ tolerance) (hfin : ∀ a ∈ p.objective, a.isFinite) (limit : Option Nat) (n : Nat)
    {t : BasicTableau Float}
    (ht : (((start m p tolerance).withMaxIterations limit).after n).tableau? = some t)
    (hpivots : ∀ k < n, ∀ u,
      (((start m p tolerance).withMaxIterations limit).after k).PivotsIn u → u.IsFinite) :
    t.Canonical := by
  have hstart : ((start m p tolerance).withMaxIterations limit).CanonicalAt :=
    ⟨hfin, htol, fun _ h => nomatch h⟩
  exact (hstart.after n hpivots).canonical t ht

/-- the greatest `x + 2y` with `3x + 7y <= 10` and `2x + y <= 5`: its quotients are no doubles -/
def elevenths : Problem Float :=
  ⟨[1, 2], .maximize, [⟨[3, 7], .lessEqual, 10⟩, ⟨[2, 1], .lessEqual, 5⟩], by decide⟩

theorem canonical_after_double_elevenths :
    ((start .primal elevenths 0).withMaxIterations none |>.after 5).iterations = 2 ∧
      ∃ t, ((start .primal elevenths 0).withMaxIterations none |>.after 5).tableau? = some t ∧
        t.Canonical := by
  have hfinite : ∀ k < 5,
      (((start .primal elevenths 0).withMaxIterations none |>.after k).tableau?.all
        fun u => u.rows.all fun row => row.all Float.isFinite) = true := by decide +kernel
  have hsome : ((start .primal elevenths 0).withMaxIterations none |>.after 5).tableau?.isSome := by
    decide +kernel
  obtain ⟨t, ht⟩ := Option.isSome_iff_exists.1 hsome
  refine ⟨by decide +kernel, t, ht, ?_⟩
  refine canonical_after_double .primal elevenths (by decide +kernel) (by decide +kernel) none 5 ht
    fun k hk u hu => ?_
  have hrows := hfinite k hk
  rw [hu.1] at hrows
  simp only [Option.all_some, List.all_eq_true] at hrows
  exact Tableau.isFinite_of_rows hrows

end Solver

end LinearProgram
