import LinearProgram.Proofs.Scalar.ExactUnits
import LinearProgram.Proofs.Tableau.Entries
import LinearProgram.Proofs.Tableau.StartingBasis
import LinearProgram.Tableau.Canonical

/-!
# Canonical form is reached and kept

Pricing out the starting basis makes the initial tableau canonical, and a pivot on an entry that
is not zero keeps it canonical.  In both a basic column meets only multiples of zeros, so all
that is asked of the numbers is `ExactUnits`, and that those that are multiplied are finite.

* `canonical_pricedOut`   the initial tableau, for a finite objective;
* `Canonical.pivot`       a pivot in a finite tableau.
-/

namespace LinearProgram

open ExactUnits

variable {α : Type} [Scalar α] [ExactUnits α]

/-- all entries are finite, the right sides included -/
def Tableau.IsFinite (t : Tableau α) : Prop :=
  ∀ i ≤ t.constraintCount, ∀ j ≤ t.variableCount, ExactUnits.IsFinite (t.cell i j)

theorem Tableau.isFinite_of_rows {t : Tableau α}
    (h : ∀ row ∈ t.rows, ∀ a ∈ row, ExactUnits.IsFinite a) : t.IsFinite := by
  intro i hi j hj
  have hr : i < t.rows.length := by rw [length_rows]; omega
  have hc : j < t.rows[i].length := by rw [length_getElem_rows]; omega
  rw [cell_eq_getD t hr, getD_of_lt hc]
  exact h _ (List.getElem_mem hr) _ (List.getElem_mem hc)

namespace BasicTableau

/-- unit columns of different rows are different -/
theorem Canonical.of_unit {t : BasicTableau α} (hfits : t.Fits)
    (hunit : ∀ i (h : i < t.basis.length), t.UnitColumn i t.basis[i]) : t.Canonical := by
  refine ⟨hfits, ?_, hunit⟩
  refine List.pairwise_iff_getElem.2 fun i j hi hj hij heq => ?_
  have hone := (hunit i hi).one
  rw [heq] at hone
  have hle : i ≤ t.constraintCount := by have := hfits.length_eq; omega
  exact not_zero_of_one hone ((hunit j hj).zero i hle (by omega))

/-! ### a pivot -/

section
variable {t : BasicTableau α} {row column : Nat}

/-- the column of the pivot becomes a unit column -/
theorem unitColumn_pivot_self (hr : row ≤ t.constraintCount) (hc : column ≤ t.variableCount) :
    (t.pivot row column).UnitColumn row column := by
  refine ⟨?_, ?_⟩
  · rw [cell_pivot_self hr hc, if_pos rfl]
    exact one_beq_one
  · intro i hi hne
    rw [constraintCount_pivot] at hi
    rw [cell_pivot_of_ne hr hi hne hc]
    by_cases hzero : t.cell i column == 0
    · rw [if_pos hzero]
      exact hzero
    · rw [if_neg hzero, if_pos rfl]
      exact zero_beq_zero

/-- the unit columns of the other rows stay what they are -/
theorem unitColumn_pivot_of_ne (hfinite : t.IsFinite) (hr : row ≤ t.constraintCount)
    (hc : column ≤ t.variableCount) (hpivot : ¬ t.cell row column == 0) {i b : Nat}
    (hi : i ≤ t.constraintCount) (hne : i ≠ row) (hb : b ≤ t.variableCount)
    (hunit : t.UnitColumn i b) : (t.pivot row column).UnitColumn i b := by
  have hzero := hunit.zero row hr (Ne.symm hne)
  have hbc : b ≠ column := fun h => hpivot (h ▸ hzero)
  have hquot : t.cell row b / t.cell row column == 0 :=
    div_of_zero hzero (hfinite row hr column hc) hpivot
  refine ⟨?_, ?_⟩
  · rw [cell_pivot_of_ne hr hi hne hb, if_neg hbc]
    by_cases hdone : t.cell i column == 0
    · rw [if_pos hdone]
      exact hunit.one
    · rw [if_neg hdone]
      exact sub_of_one hunit.one (hfinite i hi column hc) hquot
  · intro k hk hki
    rw [constraintCount_pivot] at hk
    by_cases hkr : k = row
    · subst hkr
      rw [cell_pivot_self hr hb, if_neg hbc]
      exact hquot
    · rw [cell_pivot_of_ne hr hk hkr hb, if_neg hbc]
      by_cases hdone : t.cell k column == 0
      · rw [if_pos hdone]
        exact hunit.zero k hk hki
      · rw [if_neg hdone]
        exact sub_of_zero (hunit.zero k hk hki) (hfinite k hk column hc) hquot

theorem Canonical.pivot (h : t.Canonical) (hfinite : t.IsFinite) (hr : row < t.constraintCount)
    (hc : column < t.variableCount) (hpivot : ¬ t.cell row column == 0) :
    (t.pivot row column).Canonical := by
  refine Canonical.of_unit (h.toFits.pivot row hc) fun i hi => ?_
  have hi' : i < t.basis.length := by simpa using hi
  have hle : i ≤ t.constraintCount := by have := h.length_eq; omega
  have hget : (t.pivot row column).basis[i] = if row = i then column else t.basis[i] := by
    simp only [basis_pivot, List.getElem_set]
  rw [hget]
  by_cases hrow : row = i
  · subst hrow
    rw [if_pos rfl]
    exact unitColumn_pivot_self (by omega) (by omega)
  · rw [if_neg hrow]
    have hb := h.lt _ (List.getElem_mem hi')
    exact unitColumn_pivot_of_ne hfinite (by omega) (by omega) hpivot hle (Ne.symm hrow)
      (by omega) (h.unit i hi')

end

end BasicTableau

/-! ### pricing out -/

/-- a row with a one in its own basic column and zeros in the others -/
structure BasicRow (basis : List Nat) (row : List α) (column : Nat) : Prop where
  mem : column ∈ basis
  one : row.getD column 0 == 1
  zero : ∀ b ∈ basis, b ≠ column → row.getD b 0 == 0

/-- pricing out one basic column disturbs none of the others -/
theorem BasicRow.priceOut {basis : List Nat} {row costs : List α} {column : Nat}
    (h : BasicRow basis row column) (hlen : row.length = costs.length)
    (hbasis : ∀ b ∈ basis, b < costs.length ∧ IsFinite (costs.getD b 0)) {b : Nat}
    (hb : b ∈ basis) :
    IsFinite ((priceOut costs row column).getD b 0) ∧
      (costs.getD b 0 == 0 ∨ b = column → (priceOut costs row column).getD b 0 == 0) := by
  obtain ⟨hlt, hfin⟩ := hbasis b hb
  have hfactor := (hbasis column h.mem).2
  rw [getD_priceOut hlen column hlt]
  by_cases hzero : costs.getD column 0 == 0
  · rw [if_pos hzero]
    refine ⟨hfin, ?_⟩
    rintro (hz | rfl)
    · exact hz
    · exact hzero
  · rw [if_neg hzero]
    by_cases hbc : b = column
    · subst hbc
      have hcancel := sub_mul_one hfactor h.one
      exact ⟨isFinite_of_zero hcancel, fun _ => hcancel⟩
    · have hentry := h.zero b hb hbc
      exact ⟨isFinite_sub hfin hfactor hentry,
        fun hz => sub_of_zero (hz.resolve_right hbc) hfactor hentry⟩

theorem zero_foldl_priceOut {basis : List Nat} {l : List (List α × Nat)} {costs : List α}
    (h : ∀ a ∈ l, BasicRow basis a.1 a.2 ∧ a.1.length = costs.length)
    (hbasis : ∀ b ∈ basis, b < costs.length ∧ IsFinite (costs.getD b 0)) {b : Nat}
    (hb : b ∈ basis) (hdone : costs.getD b 0 == 0 ∨ ∃ row, (row, b) ∈ l) :
    (l.foldl (fun z a => priceOut z a.1 a.2) costs).getD b 0 == 0 := by
  induction l generalizing costs with
  | nil => exact hdone.resolve_right fun ⟨_, hmem⟩ => List.not_mem_nil hmem
  | cons a l ih =>
    obtain ⟨hrow, hlen⟩ := h a List.mem_cons_self
    have hstep := fun {b} hb => hrow.priceOut (b := b) hlen hbasis hb
    have hlen' := length_priceOut hlen a.2
    refine ih (fun c hc => ?_) (fun c hc => ?_) ?_
    · rw [hlen']
      exact h c (List.mem_cons_of_mem _ hc)
    · rw [hlen']
      exact ⟨(hbasis c hc).1, (hstep hc).1⟩
    · rcases hdone with hz | ⟨row, hmem⟩
      · exact Or.inl ((hstep hb).2 (Or.inl hz))
      · rcases List.mem_cons.1 hmem with rfl | hmem
        · exact Or.inl ((hstep hb).2 (Or.inr rfl))
        · exact Or.inr ⟨row, hmem⟩

namespace Problem

theorem isFinite_rawCosts {p : Problem α} (h : ∀ a ∈ p.objective, IsFinite a) {j : Nat}
    (hj : j < p.variableCount) : IsFinite (p.rawCosts.getD j 0) := by
  have hlt : j < p.objective.length := hj
  have hfin : IsFinite (p.objective.getD j 0) := by
    rw [getD_of_lt hlt]
    exact h _ (List.getElem_mem hlt)
  rw [getD_rawCosts hj]
  cases p.sense with
  | maximize => exact isFinite_neg hfin
  | minimize => exact hfin

omit [ExactUnits α] in
/-- the rows of the problem at a column of its starting basis -/
theorem entry_startingBasis {p : Problem α} {basis : List Nat} (h : p.startingBasis = .ok basis)
    {i b : Nat} (hb : basis[i]? = some b) {k : Nat} (hk : k < p.constraintCount) :
    (k = i → (p.tableauRows.getD k []).getD b 0 == 1) ∧
      (k ≠ i → (p.tableauRows.getD k []).getD b 0 == 0) := by
  obtain ⟨-, hunit⟩ := (unit_startingBasis h).2 i b hb
  refine ⟨?_, ?_⟩
  · rintro rfl
    obtain ⟨a, ha, hone⟩ := hunit.one
    rwa [getD_tableauRows ha]
  · intro hne
    have hlen : k < (columnOf p.matrix b).length := by
      rw [columnOf, List.length_map, length_matrix]
      exact hk
    obtain ⟨a, ha, hzero⟩ := hunit.zero k hlen hne
    rwa [getD_tableauRows ha]

omit [ExactUnits α] in
theorem basicRow_startingBasis {p : Problem α} {basis : List Nat}
    (h : p.startingBasis = .ok basis) {a : List α × Nat} (ha : a ∈ p.tableauRows.zip basis) :
    BasicRow basis a.1 a.2 := by
  obtain ⟨k, hk, rfl⟩ := List.getElem_of_mem ha
  have hlen := p.length_tableauRows
  rw [List.length_zip] at hk
  have hk1 : k < p.tableauRows.length := by omega
  have hk2 : k < basis.length := by omega
  have hget := List.getElem?_eq_getElem hk2
  rw [List.getElem_zip]
  refine ⟨List.getElem_mem hk2, ?_, fun b hb hne => ?_⟩
  · have hone := (entry_startingBasis h hget (k := k) (by omega)).1 rfl
    rwa [getD_of_lt hk1] at hone
  · obtain ⟨i, hib⟩ := List.mem_iff_getElem?.1 hb
    have hki : k ≠ i := by
      rintro rfl
      exact hne (Option.some.inj (hib.symm.trans hget))
    have hzero := (entry_startingBasis h hib (k := k) (by omega)).2 hki
    rwa [getD_of_lt hk1] at hzero

omit [ExactUnits α] in
theorem lt_of_mem_startingBasis {p : Problem α} {basis : List Nat}
    (h : p.startingBasis = .ok basis) {b : Nat} (hb : b ∈ basis) : b < p.variableCount := by
  obtain ⟨i, hib⟩ := List.mem_iff_getElem?.1 hb
  exact ((unit_startingBasis h).2 i b hib).1

/-- the objective row ends with a zero in every basic column -/
theorem zero_priceOutAll {p : Problem α} {basis : List Nat} (h : p.startingBasis = .ok basis)
    (hfin : ∀ a ∈ p.objective, IsFinite a) {i : Nat} (hi : i < basis.length) :
    (priceOutAll p.rawCosts p.tableauRows basis).getD basis[i] 0 == 0 := by
  have hlen := (unit_startingBasis h).1
  have hi' : i < p.tableauRows.length := by rw [length_tableauRows]; omega
  have hrows : ∀ a ∈ p.tableauRows.zip basis,
      BasicRow basis a.1 a.2 ∧ a.1.length = p.rawCosts.length := by
    intro a ha
    refine ⟨basicRow_startingBasis h ha, ?_⟩
    rw [p.length_of_mem_tableauRows (List.of_mem_zip ha).1, length_rawCosts]
  refine zero_foldl_priceOut hrows (fun b hb => ?_) (List.getElem_mem hi)
    (Or.inr ⟨p.tableauRows[i], ?_⟩)
  · have hb := lt_of_mem_startingBasis h hb
    rw [length_rawCosts]
    exact ⟨by omega, isFinite_rawCosts hfin hb⟩
  · refine List.mem_iff_getElem.2 ⟨i, by rw [List.length_zip]; omega, ?_⟩
    rw [List.getElem_zip]

theorem canonical_pricedOut {p : Problem α} {basis : List Nat} (h : p.startingBasis = .ok basis)
    (hfin : ∀ a ∈ p.objective, IsFinite a) : (p.pricedOut basis).Canonical := by
  have hlen := (unit_startingBasis h).1
  refine BasicTableau.Canonical.of_unit (fits_pricedOut h) ?_
  intro i hi
  have hi : i < basis.length := hi
  have hib : basis[i]? = some basis[i] := List.getElem?_eq_getElem hi
  refine ⟨?_, ?_⟩
  · show ((p.pricedOut basis).rows.getD i []).getD basis[i] 0 == 1
    rw [rows_pricedOut basis (by omega)]
    exact (entry_startingBasis h hib (by omega)).1 rfl
  · intro k hk hne
    rw [constraintCount_pricedOut] at hk
    show ((p.pricedOut basis).rows.getD k []).getD basis[i] 0 == 0
    rcases Nat.lt_or_eq_of_le hk with hk | rfl
    · rw [rows_pricedOut basis hk]
      exact (entry_startingBasis h hib hk).2 hne
    · rw [objectiveRow_pricedOut]
      exact zero_priceOutAll h hfin hi

end Problem

end LinearProgram
