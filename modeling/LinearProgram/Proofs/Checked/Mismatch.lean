import LinearProgram.Proofs.Checked.Parts

/-!
# Lengths that disagree

The first length that disagrees, as a relation: the rows of a matrix against the right sides, then
the relations against them, then each row against the objective; the first row of a grid against one
column at least, then each row against the first.  Parts have such a length exactly if they are not
rectangular, and it is the one that they are refused for.

* `Parts.Mismatch`, `Parts.exists_mismatch_iff`      problems in parts;
* `RowsMismatch`, `exists_rowsMismatch_iff`          grids;
* `Parts.Mismatch.ofParts_eq`, `RowsMismatch.ofRows_eq`   the refusal.
-/

namespace LinearProgram

variable {α : Type}

/-! ### the first row of another length -/

theorem exists_first_of_ne {rows : List (List α)} {width : Nat}
    (h : ¬ ∀ row ∈ rows, row.length = width) :
    ∃ before row after, rows = before ++ row :: after ∧ (∀ r ∈ before, r.length = width) ∧
      row.length ≠ width := by
  cases hfind : rows.find? (·.length != width) with
  | none =>
    refine absurd (fun row hrow => ?_) h
    simpa using List.find?_eq_none.1 hfind row hrow
  | some row =>
    obtain ⟨hrow, before, after, hrows, hbefore⟩ := List.find?_eq_some_iff_append.1 hfind
    exact ⟨before, row, after, hrows, fun r hr => by simpa using hbefore r hr, by simpa using hrow⟩

theorem find?_of_first {before : List (List α)} (after : List (List α)) {row : List α}
    {width : Nat} (hbefore : ∀ r ∈ before, r.length = width) (hrow : row.length ≠ width) :
    (before ++ row :: after).find? (·.length != width) = some row :=
  List.find?_eq_some_iff_append.2
    ⟨by simpa using hrow, before, after, rfl, fun r hr => by simpa using hbefore r hr⟩

/-! ### problems in parts -/

/-- the first of the lengths that disagrees, with what it should be and what it is -/
inductive Parts.Mismatch (p : Parts α) : Dimension → Nat → Nat → Prop where
  | rows (h : p.matrix.length ≠ p.constraintCount) :
    Mismatch p .constraintRows p.constraintCount p.matrix.length
  | relations (hrows : p.matrix.length = p.constraintCount)
    (h : p.relations.length ≠ p.constraintCount) :
    Mismatch p .relations p.constraintCount p.relations.length
  | columns (hrows : p.matrix.length = p.constraintCount)
    (hrelations : p.relations.length = p.constraintCount) {before after : List (List α)}
    {row : List α} (hmatrix : p.matrix = before ++ row :: after)
    (hbefore : ∀ r ∈ before, r.length = p.variableCount) (h : row.length ≠ p.variableCount) :
    Mismatch p .constraintColumns p.variableCount row.length

namespace Parts

variable {p : Parts α} {what : Dimension} {expected found : Nat}

theorem Mismatch.not_rectangular (h : p.Mismatch what expected found) : ¬ p.Rectangular := by
  rintro ⟨hrows, hrelations, hwidth⟩
  cases h with
  | rows h => exact h hrows
  | relations _ h => exact h hrelations
  | @columns _ _ before after row hmatrix _ h =>
    exact h (hwidth row (hmatrix ▸ List.mem_append_right _ List.mem_cons_self))

theorem exists_mismatch_iff :
    (∃ what expected found, p.Mismatch what expected found) ↔ ¬ p.Rectangular := by
  refine ⟨fun ⟨_, _, _, h⟩ => h.not_rectangular, fun hnot => ?_⟩
  by_cases hrows : p.matrix.length = p.constraintCount
  · by_cases hrelations : p.relations.length = p.constraintCount
    · obtain ⟨before, row, after, hmatrix, hbefore, hrow⟩ :=
        exists_first_of_ne fun hwidth => hnot ⟨hrows, hrelations, hwidth⟩
      exact ⟨_, _, _, .columns hrows hrelations hmatrix hbefore hrow⟩
    · exact ⟨_, _, _, .relations hrows hrelations⟩
  · exact ⟨_, _, _, .rows hrows⟩

/-- parts are refused for the first length that disagrees -/
theorem Mismatch.ofParts_eq (h : p.Mismatch what expected found) :
    Problem.ofParts p.objective p.sense p.matrix p.rhs p.relations =
      .error (.dimensionMismatch what expected found) := by
  unfold Problem.ofParts
  cases h with
  | rows h => exact if_pos h
  | relations hrows h =>
    have hrows' : ¬ p.matrix.length ≠ p.rhs.length := not_not.2 hrows
    rw [if_neg hrows']
    exact if_pos h
  | @columns hrows hrelations before after row hmatrix hbefore h =>
    have hfind := find?_of_first after hbefore h
    rw [← hmatrix] at hfind
    have hrows' : ¬ p.matrix.length ≠ p.rhs.length := not_not.2 hrows
    have hrelations' : ¬ p.relations.length ≠ p.rhs.length := not_not.2 hrelations
    rw [if_neg hrows', if_neg hrelations']
    split
    next row hrow =>
      obtain rfl := Option.some.inj (hrow.symm.trans hfind)
      rfl
    next hnone => exact absurd (hnone.symm.trans hfind) nofun

end Parts

/-! ### grids -/

/-- at least one row, at least one column, and as many columns in each row -/
def RectangularRows (rows : List (List α)) : Prop :=
  rows ≠ [] ∧ ∃ width, 0 < width ∧ ∀ row ∈ rows, row.length = width

theorem Tableau.rectangular_rows (t : Tableau α) : RectangularRows t.rows :=
  ⟨t.rows_ne_nil, t.variableCount + 1, Nat.succ_pos _, t.width_eq⟩

/-- the first length of a grid that disagrees, with what it should be and what it is -/
inductive RowsMismatch : List (List α) → Nat → Nat → Prop where
  | noRow : RowsMismatch [] 1 0
  | noColumn (rest : List (List α)) : RowsMismatch ([] :: rest) 1 0
  | columns {first : List α} (hfirst : first ≠ []) {before after : List (List α)} {row : List α}
    (hbefore : ∀ r ∈ before, r.length = first.length) (h : row.length ≠ first.length) :
    RowsMismatch (first :: (before ++ row :: after)) first.length row.length

variable {rows : List (List α)} {expected found : Nat}

theorem RowsMismatch.not_rectangular (h : RowsMismatch rows expected found) :
    ¬ RectangularRows rows := by
  rintro ⟨hne, width, hpos, hwidth⟩
  cases h with
  | noRow => exact hne rfl
  | noColumn rest => exact Nat.ne_of_lt hpos (hwidth [] List.mem_cons_self)
  | @columns first _ before after row _ h =>
    refine h ((hwidth row ?_).trans (hwidth first List.mem_cons_self).symm)
    exact List.mem_cons_of_mem _ (List.mem_append_right _ List.mem_cons_self)

theorem exists_rowsMismatch_iff :
    (∃ expected found, RowsMismatch rows expected found) ↔ ¬ RectangularRows rows := by
  refine ⟨fun ⟨_, _, h⟩ => h.not_rectangular, fun hnot => ?_⟩
  match rows with
  | [] => exact ⟨_, _, .noRow⟩
  | [] :: rest => exact ⟨_, _, .noColumn rest⟩
  | (a :: first) :: rest =>
    have hragged : ¬ ∀ row ∈ rest, row.length = (a :: first).length := fun hwidth =>
      hnot ⟨List.cons_ne_nil _ _, _, Nat.succ_pos first.length, List.forall_mem_cons.2 ⟨rfl, hwidth⟩⟩
    obtain ⟨before, row, after, rfl, hbefore, hrow⟩ := exists_first_of_ne hragged
    exact ⟨_, _, .columns (List.cons_ne_nil _ _) hbefore hrow⟩

/-- a grid is refused for the first length that disagrees -/
theorem RowsMismatch.ofRows_eq (h : RowsMismatch rows expected found) (sense : Sense) :
    Tableau.ofRows rows sense = .error (.dimensionMismatch .tableauColumns expected found) := by
  cases h with
  | noRow | noColumn => rfl
  | @columns first hfirst before after row hbefore h =>
    obtain ⟨a, first, rfl⟩ := List.exists_cons_of_ne_nil hfirst
    have hfind := find?_of_first after hbefore h
    rw [List.length_cons] at hfind
    unfold Tableau.ofRows
    split
    next hnil => cases hnil
    next hnil => cases hnil
    next b first' rest hrows =>
      cases hrows
      split
      next other hother =>
        obtain rfl := Option.some.inj (hother.symm.trans hfind)
        rfl
      next hnone => exact absurd (hnone.symm.trans hfind) nofun

end LinearProgram
