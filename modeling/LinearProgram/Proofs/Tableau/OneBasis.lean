import LinearProgram.Proofs.Tableau.Sequence

/-!
# One basis, one tableau

A canonical tableau can be read off its equations: for any step along any direction, the row of a
basic column says what becomes of its basic value.  So canonical tableaux that agree, and have the
same basic columns, have the same row for each of these columns and the same objective row.  It does
not matter on which way they were reached.

* `Agrees.row_eq`, `Agrees.objectiveRow_eq`   the rows, by their basic columns;
* `Represents.value_eq`                       the value of two tableaux of one problem;
* `Agrees.eq_of_basis`                        the whole tableau, by its basis;
* `tableau_of_basis`                          any two sequences of pivots.
-/

namespace LinearProgram

namespace Tableau

variable {t : Tableau Rat}

/-- a row is its coefficients and its right side -/
theorem row_eq_append {row : Nat} (hrow : row ≤ t.constraintCount) :
    t.rows.getD row [] = t.coefficients row ++ [t.rhs row] := by
  have hr : row < t.rows.length := by rw [length_rows]; omega
  have hlen := t.length_getElem_rows hr
  have hlast : t.rows[row].drop t.variableCount = [t.rows[row].getD t.variableCount 0] := by
    rw [List.drop_eq_getElem_cons (by omega), getD_of_lt (by omega),
      List.drop_eq_nil_of_le (by omega)]
  rw [coefficients, rhs, rhsColumn, cell_eq_getD t hr, getD_of_lt hr, ← hlast]
  exact (List.take_append_drop _ _).symm

theorem length_coefficients {row : Nat} (hrow : row ≤ t.constraintCount) :
    (t.coefficients row).length = t.variableCount := by
  have hr : row < t.rows.length := by rw [length_rows]; omega
  rw [coefficients, getD_of_lt hr, List.length_take, t.length_getElem_rows hr]
  omega

end Tableau

namespace BasicTableau

variable {t u : BasicTableau Rat}

/-! ### tableaux that agree -/

section
variable (h : u.Agrees t) (ht : t.Canonical) (hu : u.Canonical)
  (hbasis : ∀ j, j ∈ t.basis ↔ j ∈ u.basis)
include hbasis

/-- nothing is written beside the basic columns of the other tableau -/
theorem getD_spread_of_notMem_basis (f : Nat → Rat) : ∀ j ∉ u.basis, (t.spread f).getD j 0 = 0 :=
  fun _ hj => getD_spread_of_notMem fun hmem => hj ((hbasis _).1 hmem)

include h ht hu

/-- a row of one tableau at a step from the basic solution of the other -/
theorem Agrees.row_along {d : List Rat} (hd : d.length = t.variableCount) (e : Rat) {i k : Nat}
    (hi : i < t.basis.length) (hk : k < u.basis.length) (hik : t.basis[i] = u.basis[k]) :
    t.rhs i - e * dot (t.coefficients i) d + e * dot (u.coefficients k) d = u.rhs k := by
  have hk' : k < u.constraintCount := by rw [← hu.length_eq]; exact hk
  have hsat := (h.satisfies_iff _).2 (ht.satisfies_along hd e)
  have hrow := hsat.holds k hk'
  have hlen : (t.spread fun i => t.rhs i - e * dot (t.coefficients i) d).length =
      u.variableCount := by rw [length_spread, h.variableCount_eq]
  rwa [dot_along hd, hu.dot_coefficients_eq hlen (getD_spread_of_notMem_basis hbasis _) hk, ← hik,
    getD_spread ht hi] at hrow

/-- and so the objective row -/
theorem Agrees.objective_along {d : List Rat} (hd : d.length = t.variableCount) (e : Rat) :
    u.value - e * dot u.costs d = t.value - e * dot t.costs d := by
  have hobjective := h.maximizedAt_eq _ (ht.satisfies_along hd e)
  have hlen : (t.spread fun i => t.rhs i - e * dot (t.coefficients i) d).length =
      u.variableCount := by rw [length_spread, h.variableCount_eq]
  rwa [Tableau.maximizedAt, Tableau.maximizedAt, ht.dot_costs_along hd, dot_along hd,
    hu.dot_costs_eq_zero hlen (getD_spread_of_notMem_basis hbasis _), zero_add] at hobjective

/-- the rows of one basic column are equal, wherever they stand -/
theorem Agrees.row_eq {i k : Nat} (hi : i < t.basis.length) (hk : k < u.basis.length)
    (hik : t.basis[i] = u.basis[k]) : t.rows.getD i [] = u.rows.getD k [] := by
  have hi' : i ≤ t.constraintCount := by rw [← ht.length_eq]; exact hi.le
  have hk' : k ≤ u.constraintCount := by rw [← hu.length_eq]; exact hk.le
  have hlen := Tableau.length_coefficients hi'
  have hrhs : t.rhs i = u.rhs k := by
    have hstand := h.row_along ht hu hbasis (length_axis _ 0) 0 hi hk hik
    rwa [zero_mul, zero_mul, sub_zero, add_zero] at hstand
  have hcoefficients : t.coefficients i = u.coefficients k := by
    apply eq_of_dot_eq
    · rw [hlen, Tableau.length_coefficients hk', h.variableCount_eq]
    · intro d hd
      have hstep := h.row_along ht hu hbasis (hd.trans hlen) 1 hi hk hik
      linarith
  rw [Tableau.row_eq_append hi', Tableau.row_eq_append hk', hcoefficients, hrhs]

theorem Agrees.value_eq : t.value = u.value := by
  have hstand := h.objective_along ht hu hbasis (length_axis _ 0) 0
  rw [zero_mul, zero_mul, sub_zero, sub_zero] at hstand
  exact hstand.symm

theorem Agrees.objectiveRow_eq : t.objectiveRow = u.objectiveRow := by
  have hlen := Tableau.length_coefficients (t := t.toTableau) le_rfl
  have hvalue := h.value_eq ht hu hbasis
  have hcosts : t.costs = u.costs := by
    apply eq_of_dot_eq
    · rw [Tableau.length_costs, Tableau.length_costs, h.variableCount_eq]
    · intro d hd
      have hstep := h.objective_along ht hu hbasis (hd.trans hlen) 1
      linarith
  have hrow : t.objectiveRow = t.costs ++ [t.value] := Tableau.row_eq_append le_rfl
  have hrow' : u.objectiveRow = u.costs ++ [u.value] := Tableau.row_eq_append le_rfl
  rw [hrow, hrow', hcosts, hvalue]

/-- each row of one tableau is, with its basic column, a row of the other -/
theorem Agrees.mem_zip_basis {b : Nat} {r : List Rat}
    (hmem : (b, r) ∈ t.basis.zip t.constraintRows) : (b, r) ∈ u.basis.zip u.constraintRows := by
  obtain ⟨i, hget⟩ := List.mem_iff_getElem?.1 hmem
  obtain ⟨hbi, hri⟩ := List.getElem?_zip_eq_some.1 hget
  obtain ⟨hi, rfl⟩ := List.getElem?_eq_some_iff.1 hbi
  obtain ⟨k, hk, hik⟩ := List.getElem_of_mem ((hbasis _).1 (List.getElem_mem hi))
  have hk' : k < u.constraintCount := by rw [← hu.length_eq]; exact hk
  have hkrows : k < u.rows.length := by rw [Tableau.length_rows]; omega
  have hrow := h.row_eq ht hu hbasis hi hk hik.symm
  have hri := (Tableau.getElem?_constraintRows.1 hri).2
  rw [List.getD_eq_getElem?_getD, hri, getD_of_lt hkrows] at hrow
  have hrow : r = u.rows[k] := hrow
  refine List.mem_iff_getElem?.2 ⟨k, List.getElem?_zip_eq_some.2 ⟨?_, ?_⟩⟩
  · rw [List.getElem?_eq_getElem hk, hik]
  · rw [Tableau.getElem?_constraintRows, List.getElem?_eq_getElem hkrows, hrow]
    exact ⟨hk', rfl⟩

end

theorem nodup_zip_basis (ht : t.Canonical) : (t.basis.zip t.constraintRows).Nodup := by
  apply List.Nodup.of_map Prod.fst
  rw [List.map_fst_zip]
  · exact ht.nodup
  · rw [t.length_constraintRows, ht.length_eq]

/-- the rows with their basic columns are the same up to their order -/
theorem Agrees.perm_rows (h : u.Agrees t) (ht : t.Canonical) (hu : u.Canonical)
    (hbasis : ∀ j, j ∈ t.basis ↔ j ∈ u.basis) :
    (t.basis.zip t.constraintRows).Perm (u.basis.zip u.constraintRows) := by
  apply (List.perm_ext_iff_of_nodup (nodup_zip_basis ht) (nodup_zip_basis hu)).2
  rintro ⟨b, r⟩
  exact ⟨h.mem_zip_basis ht hu hbasis, h.symm.mem_zip_basis hu ht fun j => (hbasis j).symm⟩

theorem Represents.value_eq {p : Problem Rat} (ht : t.Represents p) (hu : u.Represents p)
    (hbasis : ∀ j, j ∈ t.basis ↔ j ∈ u.basis) : t.value = u.value :=
  (hu.agrees ht).value_eq ht.canonical hu.canonical hbasis

theorem Agrees.eq_of_basis (h : u.Agrees t) (ht : t.Canonical) (hu : u.Canonical)
    (hbasis : t.basis = u.basis) : t = u := by
  have hmem : ∀ j, j ∈ t.basis ↔ j ∈ u.basis := fun j => by rw [hbasis]
  refine ext_rows ?_ h.sense_eq.symm hbasis
  have hlen : t.rows.length = u.rows.length := by
    rw [Tableau.length_rows, Tableau.length_rows, h.constraintCount_eq]
  refine List.ext_getElem hlen fun i hi hi' => ?_
  rw [← getD_of_lt hi [], ← getD_of_lt hi' []]
  rw [Tableau.length_rows] at hi
  rcases Nat.lt_or_eq_of_le (Nat.lt_succ_iff.1 hi) with hlt | heq
  · have hit : i < t.basis.length := by rw [ht.length_eq]; exact hlt
    have hiu : i < u.basis.length := by rw [← hbasis]; exact hit
    exact h.row_eq ht hu hmem hit hiu (by simp only [hbasis])
  · have hobjective := h.objectiveRow_eq ht hu hmem
    rw [Tableau.objectiveRow, Tableau.objectiveRow, h.constraintCount_eq, ← heq] at hobjective
    exact hobjective

/-! ### sequences of pivots -/

/-- the entry that a pivot leaves in the column that went out of the basis -/
theorem Canonical.pivotPlace_back (ht : t.Canonical) {row column : Nat}
    (h : t.PivotPlace row column) {b : Nat} (hb : t.basis[row]? = some b) :
    (t.pivot row column).PivotPlace row b := by
  obtain ⟨hi, rfl⟩ := List.getElem?_eq_some_iff.1 hb
  have hlt := ht.lt _ (List.getElem_mem hi)
  refine ⟨by rw [constraintCount_pivot]; exact h.row_lt,
    by rw [variableCount_pivot]; exact hlt, ?_⟩
  rw [cell_pivot_self h.row_lt.le hlt.le, ht.cell_basis hi h.row_lt.le, if_pos rfl]
  split
  · exact one_ne_zero
  · exact one_div_ne_zero h.cell_ne

/-- From a canonical tableau, any two sequences of pivots on entries that are not zero lead to the
same tableau if they lead to the same basis.  If they lead to the same basic columns in different
rows, the objective rows are equal and the rows, with their basic columns, are equal up to their
order.  And a pivot is undone by one in the same row and in the column that it made leave. -/
theorem tableau_of_basis {t : BasicTableau Rat} (ht : t.Canonical) {as bs : List (Nat × Nat)}
    (has : AllPivots PivotPlace t as) (hbs : AllPivots PivotPlace t bs) :
    ((t.pivots as).basis = (t.pivots bs).basis → t.pivots as = t.pivots bs) ∧
      ((∀ j, j ∈ (t.pivots as).basis ↔ j ∈ (t.pivots bs).basis) →
        (t.pivots as).objectiveRow = (t.pivots bs).objectiveRow ∧
          ((t.pivots as).basis.zip (t.pivots as).constraintRows).Perm
            ((t.pivots bs).basis.zip (t.pivots bs).constraintRows)) ∧
      ∀ row column b, t.PivotPlace row column → t.basis[row]? = some b →
        (t.pivot row column).PivotPlace row b ∧ (t.pivot row column).pivot row b = t := by
  obtain ⟨hu, hut⟩ := ht.pivots has
  obtain ⟨hv, hvt⟩ := ht.pivots hbs
  have hvu := hvt.trans hut.symm
  refine ⟨hvu.eq_of_basis hu hv, fun hbasis => ?_, fun row column b hplace hb => ?_⟩
  · exact ⟨hvu.objectiveRow_eq hu hv hbasis, hvu.perm_rows hu hv hbasis⟩
  · have hback := ht.pivotPlace_back hplace hb
    refine ⟨hback, ?_⟩
    have hbasis : t.basis = ((t.pivot row column).pivot row b).basis := by
      obtain ⟨hi, rfl⟩ := List.getElem?_eq_some_iff.1 hb
      rw [basis_pivot, basis_pivot, List.set_set, List.set_getElem_self]
    have hagrees := (Agrees.pivot hback).trans (Agrees.pivot hplace)
    exact (hagrees.eq_of_basis ht ((ht.pivot_place hplace).pivot_place hback) hbasis).symm

/-- the tableau of `2x + y + s = 4`, `x + 3y + t = 7` with the slacks as its basis -/
def twoSlacks : BasicTableau Rat :=
  Problem.pricedOut
    ⟨[3, 2, 0, 0], .maximize, [⟨[2, 1, 1, 0], .equal, 4⟩, ⟨[1, 3, 0, 1], .equal, 7⟩], by decide⟩ [2, 3]

/-- To the basis of `x` and `y` by two ways, with a detour on one of them, and to the same columns in
the other order. -/
theorem tableau_of_basis_twoSlacks :
    twoSlacks.Canonical ∧
      (twoSlacks.pivots [(0, 0), (1, 1)]).basis = [0, 1] ∧
      (twoSlacks.pivots [(0, 1), (1, 0)]).basis = [1, 0] ∧
      (twoSlacks.pivots [(0, 0), (1, 1)]).rows =
        [[1, 0, 3/5, -1/5, 1], [0, 1, -1/5, 2/5, 2], [0, 0, 7/5, 1/5, 7]] ∧
      (twoSlacks.pivots [(0, 1), (1, 0)]).rows =
        [[0, 1, -1/5, 2/5, 2], [1, 0, 3/5, -1/5, 1], [0, 0, 7/5, 1/5, 7]] ∧
      twoSlacks.pivots [(0, 0), (1, 1)] =
        twoSlacks.pivots [(1, 0), (1, 3), (1, 1), (0, 0)] ∧
      ((twoSlacks.pivots [(0, 0), (1, 1)]).basis.zip
          (twoSlacks.pivots [(0, 0), (1, 1)]).constraintRows).Perm
        ((twoSlacks.pivots [(0, 1), (1, 0)]).basis.zip
          (twoSlacks.pivots [(0, 1), (1, 0)]).constraintRows) ∧
      (twoSlacks.pivot 0 0).pivot 0 2 = twoSlacks := by
  have hcanonical : twoSlacks.Canonical :=
    Problem.canonical_pricedOut (by decide +kernel) fun _ _ => trivial
  have hplace : twoSlacks.PivotPlace 0 0 := ⟨by decide, by decide, by decide +kernel⟩
  have hdirect : AllPivots PivotPlace twoSlacks [(0, 0), (1, 1)] :=
    ⟨hplace, ⟨by decide, by decide, by decide +kernel⟩, trivial⟩
  have hdetour : AllPivots PivotPlace twoSlacks [(1, 0), (1, 3), (1, 1), (0, 0)] :=
    ⟨⟨by decide, by decide, by decide +kernel⟩, ⟨by decide, by decide, by decide +kernel⟩,
      ⟨by decide, by decide, by decide +kernel⟩, ⟨by decide, by decide, by decide +kernel⟩, trivial⟩
  have hcrossed : AllPivots PivotPlace twoSlacks [(0, 1), (1, 0)] :=
    ⟨⟨by decide, by decide, by decide +kernel⟩, ⟨by decide, by decide, by decide +kernel⟩, trivial⟩
  have hbases : (twoSlacks.pivots [(0, 0), (1, 1)]).basis = [0, 1] ∧
      (twoSlacks.pivots [(0, 1), (1, 0)]).basis = [1, 0] := by decide
  have hcolumns : ∀ j, j ∈ (twoSlacks.pivots [(0, 0), (1, 1)]).basis ↔
      j ∈ (twoSlacks.pivots [(0, 1), (1, 0)]).basis := by
    intro j
    rw [hbases.1, hbases.2, List.mem_pair, List.mem_pair, or_comm]
  refine ⟨hcanonical, hbases.1, hbases.2, by decide +kernel, by decide +kernel, ?_, ?_, ?_⟩
  · exact (tableau_of_basis hcanonical hdirect hdetour).1 (by decide)
  · exact ((tableau_of_basis hcanonical hdirect hcrossed).2.1 hcolumns).2
  · exact ((tableau_of_basis hcanonical hdirect hdirect).2.2 0 0 2 hplace rfl).2

end BasicTableau

end LinearProgram
