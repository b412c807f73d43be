import Mathlib.Data.Finset.Powerset
import Mathlib.Data.Nat.Choose.Basic
import LinearProgram.Proofs.Solver.Limit
import LinearProgram.Proofs.Solver.PrimalOptimum
import LinearProgram.Proofs.Tableau.Improvement
import LinearProgram.Proofs.Tableau.OneBasis

/-!
# Primal solves that do not stall end

At tolerance zero a pivot of the primal method never lowers the value of the tableau, and raises it
when the right side of the leaving row is positive.  The value is a function of the basic columns,
so a solve whose pivots all raise it has no basis twice, and there are only so many of them.

* `pivotsAt_or`                a step pivots, or leaves the tableau and the number of pivots alone;
* `exists_tableau_at`          the tableau after each number of pivots;
* `value_lt_after`             the value grows with the number of pivots;
* `iterations_lt_choose`       the bound on the pivots;
* `nondegenerate_ends`         all of this for a solve from its start.
-/

namespace LinearProgram

namespace Solver

/-! ### the pivots of a run -/

section
variable {α : Type} [Scalar α] {s s' : Solver α} {t : BasicTableau α} {row column : Nat}

/-- the next step pivots in this tableau at this place -/
def PivotsAt (s : Solver α) (t : BasicTableau α) (row column : Nat) : Prop :=
  s.PivotsIn t ∧ s.method.selectPivot s.tolerance t.toTableau = .ok (some (row, column))

/-- a transition pivots, or leaves the tableau alone if there is one -/
theorem Transition.pivot_cases (h : Transition s s') :
    (s'.iterations = s.iterations ∧ ∀ t, s.tableau? = some t → s'.tableau? = some t) ∨
    ∃ t row column, s.tableau? = some t ∧
      s.method.selectPivot s.tolerance t.toTableau = .ok (some (row, column)) ∧
      s'.iterations = s.iterations + 1 ∧ s'.tableau? = some (t.pivot row column) := by
  cases h with
  | stay => exact Or.inl ⟨rfl, fun _ ht => ht⟩
  | fail => exact Or.inl ⟨rfl, fun _ ht => ht⟩
  | transform hstage =>
    refine Or.inl ⟨rfl, fun t ht => ?_⟩
    rw [tableau?, hstage] at ht
    cases ht
  | build hstage =>
    refine Or.inl ⟨rfl, fun t ht => ?_⟩
    rw [tableau?, hstage] at ht
    cases ht
  | finish hstage => exact Or.inl ⟨rfl, fun _ ht => (tableau?_of_pivoting hstage).symm.trans ht⟩
  | exhaust hstage => exact Or.inl ⟨rfl, fun _ ht => (tableau?_of_pivoting hstage).symm.trans ht⟩
  | pivot hstage _ _ hsome =>
    exact Or.inr ⟨_, _, _, tableau?_of_pivoting hstage, hsome, rfl, rfl⟩

theorem pivotsAt_or (s : Solver α) :
    (s.step.1.iterations = s.iterations ∧ ∀ t, s.tableau? = some t → s.step.1.tableau? = some t) ∨
    ∃ t row column, s.PivotsAt t row column ∧ s.step.1.tableau? = some (t.pivot row column) := by
  obtain hsame | ⟨t, row, column, ht, hsome, hnext, hpivot⟩ := (transition_step s).pivot_cases
  · exact Or.inl hsame
  · exact Or.inr ⟨t, row, column, ⟨⟨ht, hnext⟩, hsome⟩, hpivot⟩

theorem PivotsAt.tableau?_step (h : s.PivotsAt t row column) :
    s.step.1.tableau? = some (t.pivot row column) := by
  obtain ⟨⟨ht, hnext⟩, hsome⟩ := h
  obtain ⟨hsame, -⟩ | ⟨t', row', column', ⟨⟨ht', -⟩, hsome'⟩, hpivot⟩ := pivotsAt_or s
  · omega
  · obtain rfl := Option.some.inj (ht.symm.trans ht')
    obtain ⟨rfl, rfl⟩ := Prod.mk.inj (Option.some.inj (Except.ok.inj (hsome.symm.trans hsome')))
    exact hpivot

theorem after_eq_calls (s : Solver α) (n : Nat) :
    s.after n = (s.calls (List.replicate n .step)).1 := by
  induction n with
  | zero => rfl
  | succ n ih =>
    rw [after, ih, List.replicate_succ', calls_append]
    rfl

theorem after_of_settled {n : Nat} (h : (s.after n).settled) {k : Nat} (hk : n ≤ k) :
    s.after k = s.after n := by
  induction k, hk using Nat.le_induction with
  | base => rfl
  | succ k _ ih => rw [after, ih, step_of_settled h]

theorem iterations_le_after (s : Solver α) {j k : Nat} (hjk : j ≤ k) :
    (s.after j).iterations ≤ (s.after k).iterations := by
  induction k, hjk using Nat.le_induction with
  | base => exact Nat.le_refl _
  | succ k _ ih => exact ih.trans (transition_step _).iterations_le

/-- a run makes its pivots one by one, each in a tableau -/
theorem exists_tableau_at (m : Method) (p : Problem α) (tolerance : α) (n : Nat) {i : Nat}
    (hi : i < ((start m p tolerance).after n).iterations) :
    ∃ j t, ((start m p tolerance).after j).tableau? = some t ∧
      ((start m p tolerance).after j).iterations = i := by
  induction n with
  | zero => exact absurd hi (Nat.not_lt_zero i)
  | succ n ih =>
    rw [after] at hi
    obtain ⟨hsame, -⟩ | ⟨t, row, column, ⟨⟨ht, hnext⟩, -⟩, -⟩ :=
      pivotsAt_or ((start m p tolerance).after n)
    · exact ih (hsame ▸ hi)
    · rcases Nat.lt_or_eq_of_le (Nat.le_of_lt_succ (hnext ▸ hi)) with hlt | heq
      · exact ih hlt
      · exact ⟨n, t, ht, heq.symm⟩

end

/-! ### the primal method at tolerance zero -/

section
variable {p : Problem Rat} {t u : BasicTableau Rat} {row column : Nat}

theorem keepTolerance_step (n : Nat) :
    KeepTolerance 0 (List.replicate n (.step : Call Rat)) := by
  intro t ht
  cases List.eq_of_mem_replicate ht

theorem faithful_after (n : Nat) : Faithful .primal p ((start .primal p 0).after n) := by
  rw [after_eq_calls]
  exact faithful_calls le_rfl (keepTolerance_step n)

/-- what a pivot of the primal method does to the value of the tableau -/
theorem value_pivotsAt {n : Nat} (h : ((start .primal p 0).after n).PivotsAt t row column) :
    t.value ≤ (t.pivot row column).value ∧
      (t.value < (t.pivot row column).value ↔ 0 < t.rhs row) ∧ 0 ≤ t.rhs row := by
  obtain ⟨⟨ht, -⟩, hsome⟩ := h
  rw [after_eq_calls] at ht hsome
  rw [(faithful_calls le_rfl (keepTolerance_step n)).method_eq,
    (tested_calls (keepTolerance_step n)).tolerance_eq] at hsome
  obtain ⟨hentering, hleaving⟩ := Method.selectPivot_primal_some hsome
  have hrhs := rhs_nonneg_calls (keepTolerance_step n) t ht row (Tableau.leavingRow_lt hleaving)
  exact ⟨BasicTableau.value_le_pivot hentering hleaving hrhs,
    BasicTableau.value_lt_pivot_iff hentering hleaving, hrhs⟩

/-- no pivot of the solve leaves on a row with right side zero -/
def Nondegenerate (p : Problem Rat) : Prop :=
  ∀ n t row column, ((start .primal p 0).after n).PivotsAt t row column → t.rhs row ≠ 0

/-- the tableau stays, with a value that grows at each pivot -/
theorem value_le_after (hp : Nondegenerate p) {j k : Nat} (hjk : j ≤ k)
    (ht : ((start .primal p 0).after j).tableau? = some t) :
    ∃ u, ((start .primal p 0).after k).tableau? = some u ∧ t.value ≤ u.value ∧
      (((start .primal p 0).after j).iterations < ((start .primal p 0).after k).iterations →
        t.value < u.value) := by
  induction k, hjk using Nat.le_induction with
  | base => exact ⟨t, ht, le_rfl, fun h => absurd h (lt_irrefl _)⟩
  | succ k _ ih =>
    obtain ⟨u, hu, hle, hlt⟩ := ih
    rw [after]
    obtain ⟨hsame, hkept⟩ | ⟨v, row, column, hpivots, hpivot⟩ :=
      pivotsAt_or ((start .primal p 0).after k)
    · rw [hsame]
      exact ⟨u, hkept u hu, hle, hlt⟩
    · obtain rfl := Option.some.inj (hu.symm.trans hpivots.1.1)
      obtain ⟨-, hraises, hrhs⟩ := value_pivotsAt hpivots
      have hgrows := hraises.2 (lt_of_le_of_ne hrhs (hp k _ _ _ hpivots).symm)
      exact ⟨_, hpivot, hle.trans hgrows.le, fun _ => hle.trans_lt hgrows⟩

theorem value_lt_after (hp : Nondegenerate p) {j k : Nat}
    (ht : ((start .primal p 0).after j).tableau? = some t)
    (hu : ((start .primal p 0).after k).tableau? = some u)
    (hlt : ((start .primal p 0).after j).iterations < ((start .primal p 0).after k).iterations) :
    t.value < u.value := by
  rcases Nat.le_total j k with hjk | hkj
  · obtain ⟨v, hv, -, hless⟩ := value_le_after hp hjk ht
    obtain rfl := Option.some.inj (hu.symm.trans hv)
    exact hless hlt
  · exact absurd (iterations_le_after _ hkj) (not_le.2 hlt)

/-- tableaux with different numbers of pivots behind them have different basic columns -/
theorem basis_ne (hp : Nondegenerate p) {j k : Nat}
    (ht : ((start .primal p 0).after j).tableau? = some t)
    (hu : ((start .primal p 0).after k).tableau? = some u)
    (hne : ((start .primal p 0).after j).iterations ≠ ((start .primal p 0).after k).iterations) :
    t.basis.toFinset ≠ u.basis.toFinset := by
  intro hbasis
  have hsame : t.value = u.value :=
    ((faithful_after j).represents t ht).value_eq ((faithful_after k).represents u hu) fun c => by
      rw [← List.mem_toFinset, hbasis, List.mem_toFinset]
  rcases Nat.lt_or_gt_of_ne hne with hlt | hgt
  · exact (value_lt_after hp ht hu hlt).ne hsame
  · exact (value_lt_after hp hu ht hgt).ne' hsame

/-- the bases of a solve are different sets of columns, one for each number of pivots -/
theorem iterations_lt_choose (hp : Nondegenerate p) {k : Nat}
    (hu : ((start .primal p 0).after k).tableau? = some u) :
    ((start .primal p 0).after k).iterations <
      p.standardForm.variableCount.choose p.standardForm.constraintCount := by
  have hseen : ∀ i ≤ ((start .primal p 0).after k).iterations, ∃ j t,
      ((start .primal p 0).after j).tableau? = some t ∧
        ((start .primal p 0).after j).iterations = i := by
    intro i hi
    rcases Nat.lt_or_eq_of_le hi with hlt | rfl
    · exact exists_tableau_at _ _ _ k hlt
    · exact ⟨k, u, hu, rfl⟩
  have : Nonempty (BasicTableau Rat) := ⟨u⟩
  choose! j t ht hiterations using hseen
  have hcard : ((start .primal p 0).after k).iterations + 1 ≤
      ((Finset.range p.standardForm.variableCount).powersetCard
        p.standardForm.constraintCount).card := by
    rw [← Finset.card_range (((start .primal p 0).after k).iterations + 1)]
    refine Finset.card_le_card_of_injOn (fun i => (t i).basis.toFinset) (fun i hi => ?_)
      fun i hi i' hi' hbasis => ?_
    · have hrep := (faithful_after (j i)).represents (t i) (ht i (Finset.mem_range_succ_iff.1 hi))
      refine Finset.mem_powersetCard.2 ⟨fun c hc => ?_, ?_⟩
      · rw [Finset.mem_range]
        exact hrep.variableCount_eq ▸ hrep.canonical.lt c (List.mem_toFinset.1 hc)
      · rw [List.toFinset_card_of_nodup hrep.canonical.nodup, hrep.canonical.length_eq]
        exact hrep.constraintCount_eq
    · by_contra hne
      have hle := Finset.mem_range_succ_iff.1 hi
      have hle' := Finset.mem_range_succ_iff.1 hi'
      refine basis_ne hp (ht i hle) (ht i' hle') ?_ hbasis
      rwa [hiterations i hle, hiterations i' hle']
  rwa [Finset.card_powersetCard, Finset.card_range] at hcard

end

/-- Of the primal method at tolerance zero without a limit, by the solvers after each number of
steps.  The number of pivots and the tableau change together, at a pivot: it takes the tableau to
one whose value is no less, and greater exactly where the right side of the leaving row is
positive.  If the solve is not degenerate, tableaux with different numbers of pivots behind them
have different basic columns, and the solve ends: in a solver with fewer pivots, if there was a
tableau, than there are sets of as many columns as the standard form has rows. -/
theorem nondegenerate_ends (p : Problem Rat) :
    let s := (start .primal p 0).after
    (∀ k, ((s (k + 1)).iterations = (s k).iterations ∧
        ∀ t, (s k).tableau? = some t → (s (k + 1)).tableau? = some t) ∨
      ∃ t row column, (s k).PivotsAt t row column) ∧
    (∀ k t row column, (s k).PivotsAt t row column →
      (s (k + 1)).tableau? = some (t.pivot row column) ∧
      t.value ≤ (t.pivot row column).value ∧
      (t.value < (t.pivot row column).value ↔ 0 < t.rhs row)) ∧
    (Nondegenerate p →
      (∀ j k t u, (s j).tableau? = some t → (s k).tableau? = some u →
        (s j).iterations ≠ (s k).iterations → t.basis.toFinset ≠ u.basis.toFinset) ∧
      ∃ moves last answer, (start .primal p 0).Ends moves last answer ∧
        (∀ rounds, moves < rounds → (start .primal p 0).solve rounds = (last, some answer)) ∧
        ∀ t, last.tableau? = some t → last.iterations <
          p.standardForm.variableCount.choose p.standardForm.constraintCount) := by
  intro s
  refine ⟨fun k => ?_, fun k t row column h => ?_, fun hp => ⟨fun j k t u => basis_ne hp, ?_⟩⟩
  · obtain hsame | ⟨t, row, column, hpivots, -⟩ := pivotsAt_or (s k)
    · exact Or.inl hsame
    · exact Or.inr ⟨t, row, column, hpivots⟩
  · obtain ⟨hle, hiff, -⟩ := value_pivotsAt h
    exact ⟨h.tableau?_step, hle, hiff⟩
  · obtain ⟨moves, -, last, answer, hends, k, rfl⟩ :=
      exists_ends_of_invariant (P := fun u => ∃ k, u = s k)
        (k := p.standardForm.variableCount.choose p.standardForm.constraintCount)
        (fun u ⟨k, hk⟩ => ⟨k + 1, by rw [hk]; rfl⟩)
        (fun u ⟨k, hk⟩ ⟨_, t, _, hstage⟩ _ => by
          subst hk
          exact iterations_lt_choose hp (tableau?_of_pivoting hstage))
        ⟨0, rfl⟩
    exact ⟨moves, s k, answer, hends, fun rounds => hends.solve_eq,
      fun t ht => iterations_lt_choose hp ht⟩

/-- two pivots, in rows with right sides 6 and 2, and six sets of two columns out of four -/
theorem nondegenerate_ends_twoPivots :
    Nondegenerate twoPivots ∧ ((start .primal twoPivots 0).after 5).iterations = 2 ∧
    twoPivots.standardForm.variableCount.choose twoPivots.standardForm.constraintCount = 6 ∧
    ∃ moves last answer, (start .primal twoPivots 0).Ends moves last answer ∧
      ∀ t, last.tableau? = some t → last.iterations < 6 := by
  have hsettled : ((start .primal twoPivots 0).after 5).settled := by decide +kernel
  have hrhs : ∀ k ≤ 5, ∀ t ∈ ((start .primal twoPivots 0).after k).tableau?,
      ∀ i < t.constraintCount, t.rhs i ≠ 0 := by decide +kernel
  have hp : Nondegenerate twoPivots := by
    rintro k t row column ⟨⟨ht, -⟩, hsome⟩
    have hrow := (Method.selectPivot_lt hsome).1
    rcases Nat.le_total k 5 with hk | hk
    · exact hrhs k hk t ht row hrow
    · rw [after_of_settled hsettled hk] at ht
      exact hrhs 5 le_rfl t ht row hrow
  have hchoose : twoPivots.standardForm.variableCount.choose
      twoPivots.standardForm.constraintCount = 6 := by decide +kernel
  obtain ⟨-, moves, last, answer, hends, -, hlt⟩ := (nondegenerate_ends twoPivots).2.2 hp
  rw [hchoose] at hlt
  exact ⟨hp, by decide +kernel, hchoose, moves, last, answer, hends, hlt⟩

end Solver

end LinearProgram
