import LinearProgram.Proofs.Solver.Transition

/-!
# How a solve fails

A transition fails where no tableau can be built, where the limit is reached, or where the search
for a pivot fails.  Only the last says something about the problem: a verdict.

* `advance_eq_error`            the places where a transition fails;
* `Transition.verdict_cases`    a verdict was there before, or comes from the search in the tableau.
-/

namespace LinearProgram

variable {α : Type} [Scalar α]

/-- the failures that are found by the search for a pivot -/
def Failure.IsVerdict : Failure α → Prop
  | unbounded _ => True
  | infeasible _ => True
  | _ => False

/-- the failures that are found before there is a tableau -/
def Failure.IsRefusal : Failure α → Prop
  | dimensionMismatch .. => True
  | notStandardForm _ => True
  | noInitialBasis .. => True
  | noStartingSolution .. => True
  | _ => False

omit [Scalar α] in
theorem Failure.IsRefusal.not_isVerdict {e : Failure α} (h : e.IsRefusal) : ¬ e.IsVerdict := by
  cases e <;> first | exact id | exact absurd h id

omit [Scalar α] in
theorem Failure.IsRefusal.ne_iterationLimit {e : Failure α} (h : e.IsRefusal) (limit : Nat) :
    e ≠ .iterationLimit limit := by
  rintro rfl
  exact h

omit [Scalar α] in
theorem Failure.IsVerdict.ne_iterationLimit {e : Failure α} (h : e.IsVerdict) (limit : Nat) :
    e ≠ .iterationLimit limit := by
  rintro rfl
  exact h

/-! ### the start -/

theorem Method.isRefusal_of_checkStart {m : Method} {tolerance : α} {p : Problem α}
    {e : Failure α} (h : m.checkStart tolerance p = .error e) : e.IsRefusal := by
  cases m with
  | primal => cases h
  | dual =>
    simp only [checkStart] at h
    split at h
    · cases h
      trivial
    · cases h

theorem Problem.startingBasis_eq_error {p : Problem α} {e : Failure α}
    (h : p.startingBasis = .error e) : ∃ found needed, e = .noInitialBasis found needed := by
  have hget : startingBasis? p.matrix = some (.error e) := by
    rw [← h, startingBasis, Option.some_get]
  obtain ⟨owned, -, howned⟩ := Option.map_eq_some_iff.1 hget
  split at howned
  · cases howned
  · cases howned
    exact ⟨_, _, rfl⟩

theorem Problem.isRefusal_of_startingBasis {p : Problem α} {e : Failure α}
    (h : p.startingBasis = .error e) : e.IsRefusal := by
  obtain ⟨found, needed, rfl⟩ := startingBasis_eq_error h
  trivial

theorem Problem.isRefusal_of_initialTableau {p : Problem α} {basis : List Nat} {e : Failure α}
    (h : p.initialTableau basis = .error e) : e.IsRefusal := by
  unfold initialTableau at h
  split at h
  · cases h
    trivial
  split at h
  · cases h
    trivial
  split at h
  · cases h
    trivial
  · cases h

theorem Method.isVerdict_of_selectPivot {m : Method} {tolerance : α} {t : Tableau α}
    {e : Failure α} (h : m.selectPivot tolerance t = .error e) : e.IsVerdict := by
  cases m with
  | primal =>
    obtain ⟨column, rfl, -, -⟩ := selectPivot_primal_error h
    trivial
  | dual =>
    obtain ⟨row, rfl, -, -⟩ := selectPivot_dual_error h
    trivial

namespace Solver

theorem isRefusal_of_buildTableau {s : Solver α} {e : Failure α}
    (h : s.buildTableau = .error e) : e.IsRefusal := by
  unfold buildTableau at h
  split at h
  next hstart =>
    cases h
    exact Method.isRefusal_of_checkStart hstart
  split at h
  next hbasis =>
    cases h
    exact Problem.isRefusal_of_startingBasis hbasis
  next => exact Problem.isRefusal_of_initialTableau h

/-! ### transitions -/

theorem iterate_eq_error {s : Solver α} {t : BasicTableau α} {e : Failure α}
    (h : s.iterate t = .error e) :
    (∃ limit, s.limitReached = some limit ∧ e = .iterationLimit limit) ∨
      s.limitReached = none ∧ s.method.selectPivot s.tolerance t.toTableau = .error e := by
  unfold iterate at h
  split at h
  next limit hlimit =>
    cases h
    exact Or.inl ⟨limit, hlimit, rfl⟩
  next hlimit =>
    split at h
    next hselect =>
      cases h
      exact Or.inr ⟨hlimit, hselect⟩
    · cases h
    · cases h

/-- a transition fails while it builds the first tableau, or before a pivot -/
theorem advance_eq_error {s : Solver α} {e : Failure α} (h : s.advance = .error e) :
    (s.stage = .transformed ∧ s.buildTableau = .error e) ∨
      ∃ t iterated, s.stage = .pivoting t iterated ∧ s.optimal = false ∧
        s.iterate t = .error e := by
  unfold advance at h
  split at h
  · cases h
  next hstage =>
    split at h
    next hbuild =>
      cases h
      exact Or.inl ⟨hstage, hbuild⟩
    · cases h
  next t iterated hstage =>
    split at h
    · cases h
    next hopt => exact Or.inr ⟨t, iterated, hstage, Bool.eq_false_iff.2 hopt, h⟩
  · cases h

/-- a verdict was there before, or the search for a pivot in the tableau has just given it -/
theorem Transition.verdict_cases {s s' : Solver α} (h : Transition s s') {e : Failure α}
    (he : s'.failure = some e) (hverdict : e.IsVerdict) :
    s.failure = some e ∨
      ∃ t, s'.tableau? = some t ∧ s.method.selectPivot s.tolerance t.toTableau = .error e := by
  cases h with
  | fail _ hadvance =>
    obtain rfl := Option.some.inj he
    obtain ⟨-, hbuild⟩ | ⟨t, iterated, hstage, -, hiterate⟩ := advance_eq_error hadvance
    · exact absurd hverdict (isRefusal_of_buildTableau hbuild).not_isVerdict
    · obtain ⟨limit, -, rfl⟩ | ⟨-, hselect⟩ := iterate_eq_error hiterate
      · exact absurd hverdict id
      · exact Or.inr ⟨t, tableau?_of_pivoting hstage, hselect⟩
  | _ => exact Or.inl he

end Solver

end LinearProgram
