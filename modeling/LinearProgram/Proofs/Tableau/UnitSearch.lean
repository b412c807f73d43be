import Mathlib.Data.Nat.Count
import LinearProgram.Proofs.Scalar.ExactUnits
import LinearProgram.Proofs.Tableau.StartingBasis

/-!
# The search for unit columns finds them all

The scan of a column stops at a row exactly if the column is a unit column of that row, and the
search passes over no row that owns one: a column can serve no row but its own.  So a matrix has a
starting basis exactly if each of its rows owns a unit column, and then it gives each row the
leftmost of them; else the search counts the rows that own one.

* `unitRow?_eq_some_iff`               what the scan of a column finds;
* `getElem?_ownColumns?`               the column of a row after the search;
* `startingBasis?_eq`                  the search as a whole;
* `leftmost_of_startingBasis?`, `nodup_of_startingBasis?`   what it answers;
* `startingBasis?_eq_ok_iff`, `startingBasis?_eq_error_iff`   and when.
-/

namespace LinearProgram

open ExactUnits

variable {α : Type} [Scalar α] [ExactUnits α]

/-! ### one column -/

/-- zeros change nothing about what has been seen above them -/
theorem unitRowFrom?_of_zero {column : List (Option α)} (row : Nat) (one? : Option Nat)
    (h : ∀ i < column.length, ∃ a, column[i]? = some (some a) ∧ a == 0) :
    unitRowFrom? row one? column = some one? := by
  induction column generalizing row with
  | nil => rfl
  | cons b below ih =>
    obtain ⟨a, hget, ha⟩ := h 0 (Nat.zero_lt_succ _)
    obtain rfl : b = some a := Option.some.inj hget
    have hone : ¬ a == 1 := fun hone => not_zero_of_one hone ha
    rw [unitRowFrom?, if_neg (by simp [hone]), if_pos ha]
    exact ih (row + 1) fun i hi => h (i + 1) (Nat.succ_lt_succ hi)

theorem unitRowFrom?_of_isUnit {column : List (Option α)} {i : Nat} (row : Nat)
    (h : IsUnit column i) : unitRowFrom? row none column = some (some (row + i)) := by
  obtain ⟨⟨a, hget, ha⟩, hzero⟩ := h
  induction column generalizing row i with
  | nil => cases hget
  | cons b below ih =>
    cases i with
    | zero =>
      obtain rfl : b = some a := Option.some.inj hget
      rw [unitRowFrom?, if_pos (by simp [ha])]
      exact unitRowFrom?_of_zero _ _ fun k hk =>
        hzero (k + 1) (Nat.succ_lt_succ hk) (Nat.succ_ne_zero k)
    | succ i =>
      obtain ⟨z, hz, hz0⟩ := hzero 0 (Nat.zero_lt_succ _) (Nat.succ_ne_zero i).symm
      obtain rfl : b = some z := Option.some.inj hz
      have hone : ¬ z == 1 := fun hone => not_zero_of_one hone hz0
      have hbelow : ∀ k < below.length, k ≠ i → ∃ c, below[k]? = some (some c) ∧ c == 0 :=
        fun k hk hne => hzero (k + 1) (Nat.succ_lt_succ hk) (by omega)
      rw [unitRowFrom?, if_neg (by simp [hone]), if_pos hz0, ih (row + 1) hbelow hget,
        Nat.add_right_comm, Nat.add_assoc]

theorem unitRow?_eq_some_iff {column : List (Option α)} {row : Nat} :
    unitRow? column = some (some row) ↔ IsUnit column row := by
  refine ⟨isUnit_of_unitRow?, fun h => ?_⟩
  rw [unitRow?, unitRowFrom?_of_isUnit 0 h, Nat.zero_add]

instance (column : List (Option α)) (row : Nat) : Decidable (IsUnit column row) :=
  decidable_of_iff _ unitRow?_eq_some_iff

/-! ### all columns -/

omit [Scalar α] [ExactUnits α] in
theorem getElem?_giveColumn {owned : List (Option Nat)} {r column row : Nat}
    (hrow : row < owned.length) : (giveColumn owned r column)[row]? =
      some (owned[row].or (if r = row then some column else none)) := by
  have hget := List.getElem?_eq_getElem hrow
  unfold giveColumn
  split
  next hfree =>
    rw [List.getElem?_set]
    by_cases hr : r = row
    · subst hr
      rw [hget] at hfree
      rw [if_pos rfl, if_pos hrow, if_pos rfl, Option.some.inj hfree, Option.none_or]
    · rw [if_neg hr, if_neg hr, Option.or_none, hget]
  next htaken =>
    rw [hget]
    by_cases hr : r = row
    · subst hr
      cases howner : owned[r] with
      | none => exact absurd (hget.trans (congrArg some howner)) htaken
      | some c => rfl
    · rw [if_neg hr, Option.or_none]

omit [Scalar α] [ExactUnits α] in
theorem length_giveColumn (owned : List (Option Nat)) (r column : Nat) :
    (giveColumn owned r column).length = owned.length := by
  unfold giveColumn
  split
  · exact List.length_set
  · rfl

/-- After the search a row has the column that it had before, or else the first of those searched
that is a unit column of it. -/
theorem getElem?_ownColumns? {matrix : List (List α)} {columns : List Nat}
    {owned last : List (Option Nat)} (h : ownColumns? matrix owned columns = some last) {row : Nat}
    (hrow : row < owned.length) : last[row]? =
      some (owned[row].or (columns.find? fun column => IsUnit (columnOf matrix column) row)) := by
  induction columns generalizing owned with
  | nil =>
    obtain rfl := Option.some.inj h
    rw [List.find?_nil, Option.or_none, List.getElem?_eq_getElem hrow]
  | cons column rest ih =>
    rw [ownColumns?] at h
    split at h
    next hall =>
      -- with every row served the search stops, and each of them has a column
      obtain rfl := Option.some.inj h
      obtain ⟨c, hc⟩ := Option.isSome_iff_exists.1 (List.all_eq_true.1 hall _ (List.getElem_mem hrow))
      rw [List.getElem?_eq_getElem hrow, hc, Option.some_or]
    next =>
      rw [List.find?_cons]
      split at h
      · cases h
      next hnone =>
        have hno : ¬ IsUnit (columnOf matrix column) row := by
          rw [← unitRow?_eq_some_iff, hnone]
          simp
        rw [decide_eq_false hno]
        exact ih h hrow
      next r hr =>
        have hcolumn : IsUnit (columnOf matrix column) row ↔ r = row := by
          rw [← unitRow?_eq_some_iff, hr]
          simp
        have hlen : row < (giveColumn owned r column).length := by rwa [length_giveColumn]
        have hgiven := List.getElem?_eq_getElem hlen
        rw [getElem?_giveColumn hrow] at hgiven
        rw [ih h hlen, ← Option.some.inj hgiven, Option.or_assoc]
        by_cases heq : r = row
        · rw [if_pos heq, decide_eq_true (hcolumn.2 heq), Option.some_or]
        · rw [if_neg heq, decide_eq_false fun hunit => heq (hcolumn.1 hunit), Option.none_or]

/-! ### a matrix -/

/-- some column of a matrix of this width is a unit column of the row -/
def OwnsUnitColumn (matrix : List (List α)) (width row : Nat) : Prop :=
  ∃ column < width, IsUnit (columnOf matrix column) row

instance (matrix : List (List α)) (width : Nat) : DecidablePred (OwnsUnitColumn matrix width) :=
  fun _ => inferInstanceAs (Decidable (∃ column < width, _))

/-- the column is a unit column of the row, and none to the left of it is one -/
structure LeftmostUnit (matrix : List (List α)) (row column : Nat) : Prop where
  unit : IsUnit (columnOf matrix column) row
  first : ∀ c < column, ¬ IsUnit (columnOf matrix c) row

theorem IsUnit.row_unique {column : List (Option α)} {i j : Nat} (hi : IsUnit column i)
    (hj : IsUnit column j) : i = j := by
  have hsame := (unitRow?_eq_some_iff.2 hi).symm.trans (unitRow?_eq_some_iff.2 hj)
  exact Option.some.inj (Option.some.inj hsame)

/-- the leftmost unit column of a row, if it owns one -/
def leftmostUnit? (matrix : List (List α)) (width row : Nat) : Option Nat :=
  (List.range width).find? fun column => IsUnit (columnOf matrix column) row

/-- the leftmost unit columns of all rows -/
def leftmostUnits (matrix : List (List α)) (width : Nat) : List (Option Nat) :=
  (List.range matrix.length).map (leftmostUnit? matrix width)

section
variable {matrix : List (List α)} {width row column : Nat}

theorem leftmostUnit?_eq_some_iff : leftmostUnit? matrix width row = some column ↔
    column < width ∧ LeftmostUnit matrix row column := by
  rw [leftmostUnit?, List.find?_range_eq_some, decide_eq_true_iff, List.mem_range]
  refine ⟨fun h => ⟨h.2.1, h.1, fun c hc hunit => ?_⟩, fun h => ⟨h.2.unit, h.1, fun c hc => ?_⟩⟩
  · have hnot := h.2.2 c hc
    rw [decide_eq_true hunit] at hnot
    cases hnot
  · rw [decide_eq_false (h.2.first c hc)]
    rfl

theorem isSome_leftmostUnit?_iff :
    (leftmostUnit? matrix width row).isSome ↔ OwnsUnitColumn matrix width row := by
  rw [leftmostUnit?, List.find?_isSome, OwnsUnitColumn]
  simp only [List.mem_range, decide_eq_true_iff]

theorem getElem?_leftmostUnits : (leftmostUnits matrix width)[row]? = some (some column) ↔
    row < matrix.length ∧ column < width ∧ LeftmostUnit matrix row column := by
  rw [leftmostUnits, List.getElem?_map, ← leftmostUnit?_eq_some_iff]
  by_cases hrow : row < matrix.length
  · rw [List.getElem?_range hrow, Option.map_some, Option.some_inj, and_iff_right hrow]
  · rw [List.getElem?_eq_none (by simpa using hrow)]
    exact ⟨nofun, fun h => absurd h.1 hrow⟩

theorem all_leftmostUnits : (leftmostUnits matrix width).all (·.isSome) ↔
    ∀ row < matrix.length, OwnsUnitColumn matrix width row := by
  rw [leftmostUnits, List.all_map, List.all_eq_true]
  simp only [List.mem_range, Function.comp_apply, isSome_leftmostUnit?_iff]

theorem countP_leftmostUnits : (leftmostUnits matrix width).countP (·.isSome) =
    Nat.count (OwnsUnitColumn matrix width) matrix.length := by
  rw [leftmostUnits, List.countP_map]
  induction matrix.length with
  | zero => rfl
  | succ n ih =>
    rw [List.range_succ, List.countP_append, ih, List.countP_singleton, Nat.count_succ]
    simp only [Function.comp_apply, isSome_leftmostUnit?_iff]

variable (hwidth : ∀ row ∈ matrix, row.length = width)
include hwidth

/-- the search finds the leftmost unit column of each row that owns one -/
theorem startingBasis?_eq : startingBasis? matrix = some
    (if (leftmostUnits matrix width).all (·.isSome) then
      .ok ((leftmostUnits matrix width).filterMap id)
    else .error (.noInitialBasis ((leftmostUnits matrix width).countP (·.isSome))
      matrix.length)) := by
  obtain ⟨result, hresult⟩ := Option.isSome_iff_exists.1 (startingBasis?_isSome hwidth)
  have hsearch := hresult
  unfold startingBasis? at hsearch
  obtain ⟨owned, howned, hbasis⟩ := Option.map_eq_some_iff.1 hsearch
  have hstart := owns_none matrix fun _ => True
  have hlen := (hstart.ownColumns? (fun _ _ => trivial) howned).length_eq
  have hleftmost : owned = leftmostUnits matrix width := by
    refine List.ext_getElem? fun row => ?_
    by_cases hrow : row < matrix.length
    · obtain ⟨first, rest, hmatrix⟩ := List.exists_cons_of_length_pos (Nat.zero_lt_of_lt hrow)
      have hfirst : (matrix.head?.map (·.length)).getD 0 = width := by
        rw [hmatrix]
        exact hwidth first (by rw [hmatrix]; exact List.mem_cons_self)
      rw [getElem?_ownColumns? howned (by rwa [hstart.length_eq]), List.getElem_map,
        Option.none_or, hfirst, leftmostUnits, List.getElem?_map, List.getElem?_range hrow]
      rfl
    · have hout : (leftmostUnits matrix width).length ≤ row := by
        rw [leftmostUnits, List.length_map, List.length_range]
        exact Nat.not_lt.1 hrow
      rw [List.getElem?_eq_none (by omega), List.getElem?_eq_none hout]
  rw [hresult, ← hbasis, hleftmost]

/-- each entry of the basis that is found is the leftmost unit column of its row -/
theorem leftmost_of_startingBasis? {basis : List Nat}
    (h : startingBasis? matrix = some (.ok basis)) :
    basis.length = matrix.length ∧ ∀ row column, basis[row]? = some column →
      column < width ∧ LeftmostUnit matrix row column := by
  rw [startingBasis?_eq hwidth] at h
  split at h
  next hall =>
    have hmap := eq_map_some_of_all hall
    rw [Except.ok.inj (Option.some.inj h)] at hmap
    refine ⟨?_, fun row column hrow => ?_⟩
    · rw [← List.length_map (f := some), ← hmap, leftmostUnits, List.length_map, List.length_range]
    · have hget : (leftmostUnits matrix width)[row]? = some (some column) := by
        rw [hmap, List.getElem?_map, hrow]
        rfl
      exact (getElem?_leftmostUnits.1 hget).2
  · cases h

/-- no column is found twice, as it would be a unit column of two rows -/
theorem nodup_of_startingBasis? {basis : List Nat}
    (h : startingBasis? matrix = some (.ok basis)) : basis.Nodup := by
  obtain ⟨-, hleftmost⟩ := leftmost_of_startingBasis? hwidth h
  refine List.nodup_iff_getElem?_ne_getElem?.2 fun i j hij hj heq => ?_
  have hget := List.getElem?_eq_getElem hj
  have hi := (hleftmost i _ (heq.trans hget)).2
  have hj := (hleftmost j _ hget).2
  exact absurd (hi.unit.row_unique hj.unit) (Nat.ne_of_lt hij)

theorem startingBasis?_eq_ok_iff : (∃ basis, startingBasis? matrix = some (.ok basis)) ↔
    ∀ row < matrix.length, OwnsUnitColumn matrix width row := by
  rw [startingBasis?_eq hwidth, ← all_leftmostUnits]
  split
  next hall => exact ⟨fun _ => hall, fun _ => ⟨_, rfl⟩⟩
  next hall => exact ⟨nofun, fun h => absurd h hall⟩

/-- The search fails with the number of rows that own a unit column, if some row owns none. -/
theorem startingBasis?_eq_error_iff {e : Failure α} : startingBasis? matrix = some (.error e) ↔
    e = .noInitialBasis (Nat.count (OwnsUnitColumn matrix width) matrix.length) matrix.length ∧
      ∃ row < matrix.length, ¬ OwnsUnitColumn matrix width row := by
  have hsome : (∃ row < matrix.length, ¬ OwnsUnitColumn matrix width row) ↔
      ¬ (leftmostUnits matrix width).all (·.isSome) := by
    rw [all_leftmostUnits]
    push Not
    exact Iff.rfl
  rw [startingBasis?_eq hwidth, countP_leftmostUnits, hsome]
  split
  next hall => exact ⟨nofun, fun h => absurd hall h.2⟩
  next hall =>
    exact ⟨fun h => ⟨(Except.error.inj (Option.some.inj h)).symm, hall⟩, fun h => by rw [h.1]⟩

end

/-! ### a problem -/

namespace Problem

/-- some column of the problem is a unit column of the row -/
def OwnsUnit (p : Problem α) (row : Nat) : Prop :=
  ∃ column < p.variableCount, IsUnit (columnOf p.matrix column) row

instance (p : Problem α) : DecidablePred p.OwnsUnit :=
  fun _ => inferInstanceAs (Decidable (∃ column < p.variableCount, _))

/-- the number of rows that own a unit column -/
def unitRowCount (p : Problem α) : Nat := Nat.count p.OwnsUnit p.constraintCount

theorem startingBasis_eq_error_iff {p : Problem α} {e : Failure α} : p.startingBasis = .error e ↔
    e = .noInitialBasis p.unitRowCount p.constraintCount ∧
      ∃ row < p.constraintCount, ¬ p.OwnsUnit row := by
  have hget : startingBasis? p.matrix = some p.startingBasis := by
    rw [startingBasis, Option.some_get]
  have herror := startingBasis?_eq_error_iff (e := e) fun _ hrow => p.length_of_mem_matrix hrow
  rw [hget, Option.some_inj, p.length_matrix] at herror
  exact herror

end Problem

end LinearProgram
