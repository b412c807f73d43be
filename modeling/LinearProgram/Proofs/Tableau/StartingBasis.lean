import LinearProgram.Tableau.Canonical
import LinearProgram.Tableau.Initial
import LinearProgram.UnitColumn

/-!
# The starting basis consists of unit columns

The scan of a column stops at a row only if the column is a unit column of that row, and a row
keeps the first column it is given.  So the starting basis, where there is one, gives each row of
the problem a unit column of its own.

* `isUnit_of_unitRow?`           what the scan of a column finds;
* `Owns.ownColumns?`             what the search keeps, column after column;
* `Problem.unit_startingBasis`   each entry of the starting basis is a unit column of its row.
-/

namespace LinearProgram

variable {α : Type} [Scalar α]

/-- the column, read in full, is a one in the row and a zero in all others -/
structure IsUnit (column : List (Option α)) (row : Nat) : Prop where
  one : ∃ a, column[row]? = some (some a) ∧ a == 1
  zero : ∀ i < column.length, i ≠ row → ∃ a, column[i]? = some (some a) ∧ a == 0

/-- once a one has been seen only zeros may follow -/
theorem zero_of_unitRowFrom? {column : List (Option α)} {row k r : Nat}
    (h : unitRowFrom? row (some k) column = some (some r)) :
    r = k ∧ ∀ i < column.length, ∃ a, column[i]? = some (some a) ∧ a == 0 := by
  induction column generalizing row with
  | nil =>
    rw [unitRowFrom?] at h
    cases h
    exact ⟨rfl, fun i hi => absurd hi (Nat.not_lt_zero i)⟩
  | cons b below ih =>
    cases b with
    | none => cases h
    | some a =>
      rw [unitRowFrom?, if_neg (by simp)] at h
      split at h
      next ha =>
        obtain ⟨hr, hbelow⟩ := ih h
        refine ⟨hr, fun i hi => ?_⟩
        cases i with
        | zero => exact ⟨a, rfl, ha⟩
        | succ i => exact hbelow i (by simpa using hi)
      · cases h

theorem isUnit_of_unitRowFrom? {column : List (Option α)} {row r : Nat}
    (h : unitRowFrom? row none column = some (some r)) :
    ∃ i, r = row + i ∧ IsUnit column i := by
  induction column generalizing row with
  | nil => cases h
  | cons b below ih =>
    cases b with
    | none => cases h
    | some a =>
      rw [unitRowFrom?] at h
      split at h
      next ha =>
        obtain ⟨hr, hbelow⟩ := zero_of_unitRowFrom? h
        refine ⟨0, hr, ⟨a, rfl, by simpa using ha⟩, fun i hi hne => ?_⟩
        obtain ⟨i, rfl⟩ := Nat.exists_eq_succ_of_ne_zero hne
        exact hbelow i (by simpa using hi)
      next =>
        split at h
        next ha =>
          obtain ⟨i, hr, hunit⟩ := ih h
          refine ⟨i + 1, by omega, hunit.one, fun j hj hne => ?_⟩
          cases j with
          | zero => exact ⟨a, rfl, ha⟩
          | succ j => exact hunit.zero j (by simpa using hj) (by omega)
        · cases h

theorem isUnit_of_unitRow? {column : List (Option α)} {row : Nat}
    (h : unitRow? column = some (some row)) : IsUnit column row := by
  obtain ⟨i, hi, hunit⟩ := isUnit_of_unitRowFrom? h
  rw [Nat.zero_add] at hi
  rwa [hi]

/-! ### the search -/

/-- every column handed out so far is an admitted unit column of its row -/
structure Owns (matrix : List (List α)) (admitted : Nat → Prop) (owned : List (Option Nat)) :
    Prop where
  length_eq : owned.length = matrix.length
  unit : ∀ row column, owned[row]? = some (some column) →
    admitted column ∧ IsUnit (columnOf matrix column) row

theorem Owns.giveColumn {matrix : List (List α)} {admitted : Nat → Prop}
    {owned : List (Option Nat)} (h : Owns matrix admitted owned) {row column : Nat}
    (hc : admitted column) (hunit : IsUnit (columnOf matrix column) row) :
    Owns matrix admitted (giveColumn owned row column) := by
  unfold LinearProgram.giveColumn
  split
  next hfree =>
    refine ⟨by rw [List.length_set, h.length_eq], fun r c hr => ?_⟩
    rw [List.getElem?_set] at hr
    split at hr
    next heq =>
      split at hr
      · obtain rfl : column = c := by simpa using hr
        rw [← heq]
        exact ⟨hc, hunit⟩
      · cases hr
    · exact h.unit r c hr
  · exact h

theorem Owns.ownColumns? {matrix : List (List α)} {admitted : Nat → Prop} {columns : List Nat}
    (hc : ∀ column ∈ columns, admitted column) {owned last : List (Option Nat)}
    (h : Owns matrix admitted owned) (hlast : ownColumns? matrix owned columns = some last) :
    Owns matrix admitted last := by
  induction columns generalizing owned with
  | nil =>
    obtain rfl := Option.some.inj hlast
    exact h
  | cons column rest ih =>
    have ih := @ih fun c hmem => hc c (List.mem_cons_of_mem _ hmem)
    rw [LinearProgram.ownColumns?] at hlast
    split at hlast
    · obtain rfl := Option.some.inj hlast
      exact h
    · split at hlast
      · cases hlast
      · exact ih h hlast
      next row hrow =>
        exact ih (h.giveColumn (hc column List.mem_cons_self) (isUnit_of_unitRow? hrow)) hlast

/-- the search starts with no column handed out -/
theorem owns_none (matrix : List (List α)) (admitted : Nat → Prop) :
    Owns matrix admitted (matrix.map fun _ => none) := by
  refine ⟨List.length_map _, fun row column hnone => ?_⟩
  rw [List.getElem?_map] at hnone
  obtain ⟨_, -, hnone⟩ := Option.map_eq_some_iff.1 hnone
  cases hnone

omit [Scalar α] in
theorem eq_map_some_of_all {owned : List (Option Nat)} (h : owned.all (·.isSome)) :
    owned = (owned.filterMap id).map some := by
  induction owned with
  | nil => rfl
  | cons a rest ih =>
    rw [List.all_cons, Bool.and_eq_true] at h
    obtain ⟨column, rfl⟩ := Option.isSome_iff_exists.1 h.1
    show some column :: rest = some column :: (rest.filterMap id).map some
    rw [← ih h.2]

namespace Problem

omit [Scalar α] in
/-- the search goes through the columns of the problem -/
theorem lt_of_mem_range_width {p : Problem α} {column : Nat}
    (h : column ∈ List.range ((p.matrix.head?.map (·.length)).getD 0)) :
    column < p.variableCount := by
  rw [List.mem_range] at h
  cases hmatrix : p.matrix with
  | nil =>
    rw [hmatrix] at h
    exact absurd h (Nat.not_lt_zero _)
  | cons row rest =>
    have hrow : row ∈ p.matrix := by
      rw [hmatrix]
      exact List.mem_cons_self
    rw [hmatrix] at h
    rw [← p.length_of_mem_matrix hrow]
    exact h

theorem unit_startingBasis {p : Problem α} {basis : List Nat} (h : p.startingBasis = .ok basis) :
    basis.length = p.constraintCount ∧
      ∀ row column, basis[row]? = some column →
        column < p.variableCount ∧ IsUnit (columnOf p.matrix column) row := by
  have hget : startingBasis? p.matrix = some (.ok basis) := by
    rw [← h, startingBasis, Option.some_get]
  unfold startingBasis? at hget
  obtain ⟨owned, howned, hbasis⟩ := Option.map_eq_some_iff.1 hget
  split at hbasis
  next hall =>
    have hbasis : owned.filterMap id = basis := Except.ok.inj hbasis
    have hmap := eq_map_some_of_all hall
    rw [hbasis] at hmap
    have howns : Owns p.matrix (· < p.variableCount) owned :=
      (owns_none p.matrix _).ownColumns? (fun _ => lt_of_mem_range_width) howned
    refine ⟨?_, ?_⟩
    · rw [← p.length_matrix, ← howns.length_eq, hmap, List.length_map]
    · intro row column hrow
      refine howns.unit row column ?_
      rw [hmap, List.getElem?_map, hrow]
      rfl
  · cases hbasis

/-- so it fits the tableau that is built on it -/
theorem fits_pricedOut {p : Problem α} {basis : List Nat} (h : p.startingBasis = .ok basis) :
    (p.pricedOut basis).Fits := by
  obtain ⟨hlen, hunit⟩ := unit_startingBasis h
  refine ⟨by rw [constraintCount_pricedOut]; exact hlen, fun column hmem => ?_⟩
  obtain ⟨row, hrow⟩ := List.mem_iff_getElem?.1 hmem
  exact (hunit row column hrow).1

end Problem

end LinearProgram
