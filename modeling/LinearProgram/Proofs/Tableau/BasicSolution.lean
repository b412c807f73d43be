import LinearProgram.Proofs.Tableau.Equations
import LinearProgram.Solution
import LinearProgram.Tableau.Canonical

/-!
# The basic solution

In a canonical tableau a row reads off what is written at its basic column, and the reduced costs
do not see it.  So the right sides, written there, solve all equations.

* `Canonical.dot_coefficients_spread`   rows at values spread over the basic columns;
* `Canonical.satisfies_basicValues`     the basic solution solves the equations;
* `Canonical.objectiveAt_basicValues`   its objective is that of the tableau;
* `Canonical.satisfies_along`           a step away from it that keeps to the equations.
-/

namespace LinearProgram

namespace BasicTableau

/-! ### values by column -/

section
variable {α : Type} [Scalar α] {t : BasicTableau α}

omit [Scalar α] in
theorem getD_foldl_set_of_notMem {f : Nat → α} {l : List (Nat × Nat)} {values : List α} {j : Nat}
    {d : α} (h : ∀ a ∈ l, a.1 ≠ j) :
    (l.foldl (fun vs a => vs.set a.1 (f a.2)) values).getD j d = values.getD j d := by
  induction l generalizing values with
  | nil => rfl
  | cons a l ih =>
    have hne := h a List.mem_cons_self
    rw [List.foldl_cons, ih fun b hb => h b (List.mem_cons_of_mem _ hb),
      List.getD_eq_getElem?_getD (l := values.set _ _), List.getElem?_set_ne hne,
      List.getD_eq_getElem?_getD]

omit [Scalar α] in
theorem getD_foldl_set_of_mem {f : Nat → α} {l : List (Nat × Nat)} {values : List α} {j i : Nat}
    {d : α} (hnodup : (l.map Prod.fst).Nodup) (h : (j, i) ∈ l) (hj : j < values.length) :
    (l.foldl (fun vs a => vs.set a.1 (f a.2)) values).getD j d = f i := by
  induction l generalizing values with
  | nil => exact absurd h List.not_mem_nil
  | cons a l ih =>
    rw [List.map_cons, List.nodup_cons] at hnodup
    rcases List.mem_cons.1 h with rfl | h
    · rw [List.foldl_cons, getD_foldl_set_of_notMem, List.getD_eq_getElem?_getD,
        List.getElem?_set_self hj]
      · rfl
      · intro b hb heq
        exact hnodup.1 (List.mem_map.2 ⟨b, hb, heq⟩)
    · exact ih hnodup.2 h (by rwa [List.length_set])

/-- values written at the basic columns, row by row, and zeros in all other places -/
def spread (t : BasicTableau α) (f : Nat → α) : List α :=
  t.basis.zipIdx.foldl (fun values a => values.set a.1 (f a.2)) (List.replicate t.variableCount 0)

theorem basicValues_eq_spread (t : BasicTableau α) : t.basicValues = t.spread t.rhs := rfl

theorem length_spread (t : BasicTableau α) (f : Nat → α) :
    (t.spread f).length = t.variableCount := by
  rw [spread, length_foldl_set, List.length_replicate]

theorem getD_spread_of_notMem {f : Nat → α} {j : Nat} (h : j ∉ t.basis) :
    (t.spread f).getD j 0 = 0 := by
  rw [spread, getD_foldl_set_of_notMem]
  · rw [List.getD_eq_getElem?_getD, List.getElem?_replicate]
    split <;> rfl
  · intro a ha heq
    exact h (heq ▸ List.fst_mem_of_mem_zipIdx ha)

theorem getD_spread (h : t.Canonical) {f : Nat → α} {i : Nat} (hi : i < t.basis.length) :
    (t.spread f).getD t.basis[i] 0 = f i := by
  have hmem : (t.basis[i], i) ∈ t.basis.zipIdx :=
    List.mem_zipIdx_iff_getElem?.2 (List.getElem?_eq_getElem hi)
  refine getD_foldl_set_of_mem ?_ hmem ?_
  · rw [List.zipIdx_map_fst]
    exact h.nodup
  · rw [List.length_replicate]
    exact h.lt _ (List.getElem_mem hi)

end

/-! ### the basic solution of a canonical tableau -/

variable {t : BasicTableau Rat}

theorem Canonical.cell_basis (h : t.Canonical) {i k : Nat} (hk : k < t.basis.length)
    (hi : i ≤ t.constraintCount) : t.cell i t.basis[k] = if i = k then 1 else 0 := by
  have hunit := h.unit k hk
  by_cases hik : i = k
  · rw [if_pos hik, hik]
    exact beq_iff_eq.1 hunit.one
  · rw [if_neg hik]
    exact beq_iff_eq.1 (hunit.zero i hi hik)

theorem getD_coefficients {row j : Nat} (hj : j < t.variableCount) :
    (t.coefficients row).getD j 0 = t.cell row j := by
  rw [Tableau.coefficients, List.getD_eq_getElem?_getD (l := List.take _ _),
    List.getElem?_take_of_lt hj, Tableau.cell, List.getD_eq_getElem?_getD (i := j)]

theorem getD_costs {j : Nat} (hj : j < t.variableCount) :
    t.costs.getD j 0 = t.cell t.constraintCount j := getD_coefficients hj

/-- a row at a point, by the entries of the tableau -/
theorem dot_coefficients {x : List Rat} (hx : x.length = t.variableCount) (row : Nat) :
    dot (t.coefficients row) x =
      ∑ j ∈ Finset.range t.variableCount, t.cell row j * x.getD j 0 := by
  rw [dot_eq_sum hx]
  apply Finset.sum_congr rfl
  intro j hj
  rw [getD_coefficients (Finset.mem_range.1 hj)]

/-- a constraint row reads off the entry at its basic column, where all other basic columns and
nothing else may have entries -/
theorem Canonical.dot_coefficients_eq (h : t.Canonical) {x : List Rat}
    (hx : x.length = t.variableCount) (hzero : ∀ j ∉ t.basis, x.getD j 0 = 0) {row : Nat}
    (hi : row < t.basis.length) : dot (t.coefficients row) x = x.getD t.basis[row] 0 := by
  have hle : row ≤ t.constraintCount := by rw [← h.length_eq]; exact hi.le
  have hlt := h.lt _ (List.getElem_mem hi)
  rw [dot_coefficients hx, Finset.sum_eq_single_of_mem t.basis[row] (Finset.mem_range.2 hlt)]
  · rw [h.cell_basis hi hle, if_pos rfl, one_mul]
  · -- another column is basic in another row, where its entry here is zero, or not basic at all
    intro j _ hne
    by_cases hj : j ∈ t.basis
    · obtain ⟨k, hk, rfl⟩ := List.getElem_of_mem hj
      have hrk : row ≠ k := by
        rintro rfl
        exact hne rfl
      rw [h.cell_basis hk hle, if_neg hrk, zero_mul]
    · rw [hzero j hj, mul_zero]

/-- a constraint row reads off the value that was written for it -/
theorem Canonical.dot_coefficients_spread (h : t.Canonical) (f : Nat → Rat) {row : Nat}
    (hrow : row < t.constraintCount) : dot (t.coefficients row) (t.spread f) = f row := by
  have hi : row < t.basis.length := by rw [h.length_eq]; exact hrow
  rw [h.dot_coefficients_eq (t.length_spread f) (fun _ hj => getD_spread_of_notMem hj) hi,
    getD_spread h hi]

/-- the reduced costs do not see what is written at basic columns -/
theorem Canonical.dot_costs_eq_zero (h : t.Canonical) {x : List Rat}
    (hx : x.length = t.variableCount) (hzero : ∀ j ∉ t.basis, x.getD j 0 = 0) :
    dot t.costs x = 0 := by
  refine (dot_coefficients hx t.constraintCount).trans (Finset.sum_eq_zero fun j _ => ?_)
  by_cases hj : j ∈ t.basis
  · obtain ⟨k, hk, rfl⟩ := List.getElem_of_mem hj
    have hlen := h.length_eq
    rw [h.cell_basis hk le_rfl, if_neg (by omega), zero_mul]
  · rw [hzero j hj, mul_zero]

theorem Canonical.dot_costs_spread (h : t.Canonical) (f : Nat → Rat) :
    dot t.costs (t.spread f) = 0 :=
  h.dot_costs_eq_zero (t.length_spread f) fun _ hj => getD_spread_of_notMem hj

theorem spread_nonneg (h : t.Canonical) {f : Nat → Rat} (hf : ∀ i < t.constraintCount, 0 ≤ f i) :
    ∀ v ∈ t.spread f, 0 ≤ v := by
  intro v hv
  obtain ⟨j, hj, rfl⟩ := List.getElem_of_mem hv
  rw [← getD_of_lt hj 0]
  by_cases hmem : j ∈ t.basis
  · obtain ⟨k, hk, rfl⟩ := List.getElem_of_mem hmem
    rw [getD_spread h hk]
    exact hf k (by rw [← h.length_eq]; exact hk)
  · rw [getD_spread_of_notMem hmem]

theorem Canonical.satisfies_basicValues (h : t.Canonical) : t.Satisfies t.basicValues :=
  ⟨t.length_basicValues, fun _ hrow => h.dot_coefficients_spread t.rhs hrow⟩

theorem Canonical.objectiveAt_basicValues (h : t.Canonical) :
    t.objectiveAt t.basicValues = t.objectiveValue := by
  have hvalue : t.value - dot t.costs t.basicValues = t.value := by
    rw [basicValues_eq_spread, h.dot_costs_spread, sub_zero]
  rw [Tableau.objectiveAt, hvalue]
  rfl

/-! ### along a direction -/

/-- a step from the basic solution along a direction, with the basic values corrected so that the
equations still hold -/
def along (t : BasicTableau Rat) (d : List Rat) (e : Rat) : List Rat :=
  List.zipWith (fun u v => u + e * v)
    (t.spread fun i => t.rhs i - e * dot (t.coefficients i) d) d

variable {d : List Rat}

theorem dot_along (hd : d.length = t.variableCount) (e : Rat) (a : List Rat) :
    dot a (t.along d e) =
      dot a (t.spread fun i => t.rhs i - e * dot (t.coefficients i) d) + e * dot a d :=
  dot_zipWith_add (by rw [length_spread, hd]) e a

theorem length_along (hd : d.length = t.variableCount) (e : Rat) :
    (t.along d e).length = t.variableCount := by
  rw [along, List.length_zipWith, length_spread, hd, Nat.min_self]

theorem getD_along (hd : d.length = t.variableCount) (e : Rat) {j : Nat}
    (hj : j < t.variableCount) :
    (t.along d e).getD j 0 =
      (t.spread fun i => t.rhs i - e * dot (t.coefficients i) d).getD j 0 + e * d.getD j 0 := by
  rw [getD_of_lt (by rw [length_along hd]; exact hj), getD_of_lt (by rw [length_spread]; exact hj),
    getD_of_lt (by rw [hd]; exact hj)]
  exact List.getElem_zipWith

theorem along_nonneg (h : t.Canonical) (hd : d.length = t.variableCount) (hnonneg : ∀ v ∈ d, 0 ≤ v)
    {e : Rat} (he : 0 ≤ e)
    (hstep : ∀ i < t.constraintCount, e * dot (t.coefficients i) d ≤ t.rhs i) :
    ∀ v ∈ t.along d e, 0 ≤ v := by
  intro v hv
  obtain ⟨j, hj, rfl⟩ := List.getElem_of_mem hv
  have hlt : j < t.variableCount := by rwa [length_along hd] at hj
  have hbasic := spread_nonneg h (fun i hi => sub_nonneg.2 (hstep i hi)) _
    (List.getElem_mem (by rw [length_spread]; exact hlt))
  have hdir := hnonneg _ (List.getElem_mem (by rw [hd]; exact hlt))
  rw [← getD_of_lt hj 0, getD_along hd e hlt, getD_of_lt (by rw [length_spread]; exact hlt),
    getD_of_lt (by rw [hd]; exact hlt)]
  exact add_nonneg hbasic (mul_nonneg he hdir)

theorem Canonical.satisfies_along (h : t.Canonical) (hd : d.length = t.variableCount) (e : Rat) :
    t.Satisfies (t.along d e) := by
  refine ⟨length_along hd e, fun row hrow => ?_⟩
  rw [dot_along hd, h.dot_coefficients_spread _ hrow]
  exact sub_add_cancel _ _

/-- the reduced costs see only the step -/
theorem Canonical.dot_costs_along (h : t.Canonical) (hd : d.length = t.variableCount) (e : Rat) :
    dot t.costs (t.along d e) = e * dot t.costs d := by
  rw [dot_along hd, h.dot_costs_spread, zero_add]

end BasicTableau

end LinearProgram
