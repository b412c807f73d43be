import LinearProgram.Proofs.Double.Units
import LinearProgram.Proofs.Tableau.UnitSearch

/-!
# The starting basis of doubles

Doubles compare with one and with zero by `==`, to which the two zeros are one number and which a
NaN never satisfies.  That is all that the search for unit columns asks of them.

* `startingBasis_exact`   what the search finds in any matrix of one width.
-/

namespace LinearProgram

/-- A matrix of doubles has a starting basis exactly if each of its rows owns a unit column.  The
basis has one entry for each row, the leftmost of its unit columns, and no entry twice.  Without it
the failure counts the rows that own a unit column. -/
theorem startingBasis_exact {matrix : List (List Float)} {width : Nat}
    (hwidth : ∀ row ∈ matrix, row.length = width) :
    ((∃ basis, startingBasis? matrix = some (.ok basis)) ↔
      ∀ row < matrix.length, OwnsUnitColumn matrix width row) ∧
    (∀ basis, startingBasis? matrix = some (.ok basis) →
      basis.length = matrix.length ∧
      (∀ row column, basis[row]? = some column → LeftmostUnit matrix row column) ∧
      basis.Nodup ∧ ∀ column ∈ basis, column < width) ∧
    ((¬ ∀ row < matrix.length, OwnsUnitColumn matrix width row) →
      startingBasis? matrix = some (.error (.noInitialBasis
        (Nat.count (OwnsUnitColumn matrix width) matrix.length) matrix.length))) := by
  refine ⟨startingBasis?_eq_ok_iff hwidth, fun basis hbasis => ?_, fun hnot => ?_⟩
  · obtain ⟨hlen, hleftmost⟩ := leftmost_of_startingBasis? hwidth hbasis
    refine ⟨hlen, fun row column h => (hleftmost row column h).2,
      nodup_of_startingBasis? hwidth hbasis, fun column hmem => ?_⟩
    obtain ⟨row, hrow⟩ := List.mem_iff_getElem?.1 hmem
    exact (hleftmost row column hrow).1
  · refine (startingBasis?_eq_error_iff hwidth).2 ⟨rfl, ?_⟩
    push Not at hnot
    exact hnot

/-- Zeros of both signs, two unit columns for the first row, and no unit column for the last one in
the first five columns: one of its ones stands under a NaN. -/
def underNaN : List (List Float) :=
  [[0 / 0, 1, 0, 1, -0.0], [0, -0.0, 0, 0, 1], [1, 0, 2, 0, 0]]

/-- the same with a unit column for the last row -/
def besideNaN : List (List Float) :=
  [[0 / 0, 1, 0, 1, -0.0, 0], [0, -0.0, 0, 0, 1, -0.0], [1, 0, 2, 0, 0, 1]]

theorem startingBasis_exact_besideNaN :
    (∀ row ∈ besideNaN, row.length = 6) ∧ startingBasis? besideNaN = some (.ok [1, 4, 5]) ∧
      LeftmostUnit besideNaN 0 1 ∧ LeftmostUnit besideNaN 1 4 ∧ LeftmostUnit besideNaN 2 5 ∧
    (∀ row ∈ underNaN, row.length = 5) ∧ ¬ OwnsUnitColumn underNaN 5 2 ∧
      startingBasis? underNaN = some (.error (.noInitialBasis 2 3)) := by
  have hwidth : ∀ row ∈ besideNaN, row.length = 6 := by decide
  have hwidth' : ∀ row ∈ underNaN, row.length = 5 := by decide
  have hbasis : startingBasis? besideNaN = some (.ok [1, 4, 5]) := by decide +kernel
  obtain ⟨-, hleftmost, -⟩ := (startingBasis_exact hwidth).2.1 _ hbasis
  have hnot : ¬ OwnsUnitColumn underNaN 5 2 := by decide +kernel
  have herror := (startingBasis_exact hwidth').2.2 fun h => hnot (h 2 (by decide))
  have hcount : Nat.count (OwnsUnitColumn underNaN 5) underNaN.length = 2 := by decide +kernel
  rw [hcount] at herror
  exact ⟨hwidth, hbasis, hleftmost 0 1 rfl, hleftmost 1 4 rfl, hleftmost 2 5 rfl, hwidth', hnot,
    herror⟩

end LinearProgram
