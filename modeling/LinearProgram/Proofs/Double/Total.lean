import LinearProgram.Proofs.Double.Order

/-!
# Doubles that are numbers

NaN aside, doubles are totally ordered, with the two zeros as one, and negation turns the order
around.  Negation itself is exact on all of them: twice, it is nothing.

* `Double.isNaN_iff`       the doubles that unpack to no number;
* `Double.le_total`, `Double.not_lt_iff_le`   the order of the others;
* `Double.isNaN_of_lt`     what is below something, or above it, is a number;
* `Double.neg_nonneg_of_not`   a number that is not at least zero, negated;
* `Double.neg_neg`         negating twice.
-/

namespace LinearProgram.Double
open Float.Model Float.Model.UnpackedFloat

theorem isNaN_iff (x : Float) : x.isNaN ↔ unpacked x = .notANumber := by
  show (unpacked x).isNaN = true ↔ _
  cases unpacked x with
  | notANumber => exact ⟨fun _ => rfl, fun _ => rfl⟩
  | _ => exact ⟨nofun, nofun⟩

theorem isNaN_of_isFinite {x : Float} (hx : x.isFinite) : x.isNaN = false := by
  rw [← Bool.not_eq_true, isNaN_iff]
  obtain ⟨s, hs⟩ | ⟨s, m, e, hm, hs⟩ := (isFinite_iff x).1 hx <;> rw [hs] <;> exact nofun

theorem rank_le_of_isNaN_eq_false {x : Float} (hx : x.isNaN = false) : rank x ≤ infinityRank := by
  have hnan : unpacked x ≠ .notANumber := by
    rw [Ne, ← isNaN_iff, hx]
    exact Bool.false_ne_true
  rw [rank_eq_level]
  cases hu : unpacked x with
  | notANumber => exact absurd hu hnan
  | infinity s => exact Nat.le_refl _
  | zero s => exact Nat.zero_le _
  | finite s m e hm => exact Nat.min_le_left _ _

section
variable {x y : Float} (hx : x.isNaN = false) (hy : y.isNaN = false)
include hx hy

theorem le_total : x ≤ y ∨ y ≤ x := by
  have hx := rank_le_of_isNaN_eq_false hx
  have hy := rank_le_of_isNaN_eq_false hy
  rw [le_iff_position hx hy, le_iff_position hy hx]
  exact Int.le_total _ _

theorem not_lt_iff_le : ¬ x < y ↔ y ≤ x := by
  have hx := rank_le_of_isNaN_eq_false hx
  have hy := rank_le_of_isNaN_eq_false hy
  rw [lt_iff_position hx hy, le_iff_position hy hx, Int.not_lt]

theorem beq_iff_le_and_le : x == y ↔ x ≤ y ∧ y ≤ x := by
  have hx := rank_le_of_isNaN_eq_false hx
  have hy := rank_le_of_isNaN_eq_false hy
  rw [beq_iff, compare_eq (canonical_unpacked x) (canonical_unpacked y) (unpacked_ne_notANumber hx)
    (unpacked_ne_notANumber hy), Option.some_inj, compare_eq_iff_eq, le_iff_position hx hy,
    le_iff_position hy hx, position_eq, position_eq, le_antisymm_iff]

end

/-! ### below -/

section
variable {x y z : Float}

theorem isNaN_of_lt (h : x < y) : x.isNaN = false ∧ y.isNaN = false := by
  rw [lt_iff] at h
  constructor
  · rw [← Bool.not_eq_true, isNaN_iff]
    intro hx
    rw [hx] at h
    cases h
  · rw [← Bool.not_eq_true, isNaN_iff]
    intro hy
    rw [hy] at h
    cases hu : unpacked x <;> rw [hu] at h <;> cases h

theorem lt_irrefl (x : Float) : ¬ x < x := by
  intro h
  have hx := rank_le_of_isNaN_eq_false (isNaN_of_lt h).1
  rw [lt_iff_position hx hx] at h
  exact Int.lt_irrefl _ h

theorem lt_trans (h : x < y) (h' : y < z) : x < z := by
  have hx := rank_le_of_isNaN_eq_false (isNaN_of_lt h).1
  have hy := rank_le_of_isNaN_eq_false (isNaN_of_lt h).2
  have hz := rank_le_of_isNaN_eq_false (isNaN_of_lt h').2
  rw [lt_iff_position hx hy] at h
  rw [lt_iff_position hy hz] at h'
  rw [lt_iff_position hx hz]
  exact Int.lt_trans h h'

theorem le_of_lt (h : x < y) : x ≤ y := by
  obtain ⟨hx, hy⟩ := isNaN_of_lt h
  rw [← not_lt_iff_le hy hx]
  intro h'
  exact lt_irrefl x (lt_trans h h')

theorem le_refl (hx : x.isNaN = false) : x ≤ x := (not_lt_iff_le hx hx).1 (lt_irrefl x)

theorem lt_of_lt_of_le (hz : z.isNaN = false) (h : x < y) (h' : y ≤ z) : x < z := by
  obtain ⟨hx, hy⟩ := isNaN_of_lt h
  by_contra hle
  rw [not_lt_iff_le hx hz] at hle
  have hx := rank_le_of_isNaN_eq_false hx
  have hy := rank_le_of_isNaN_eq_false hy
  have hz := rank_le_of_isNaN_eq_false hz
  rw [lt_iff_position hx hy] at h
  rw [le_iff_position hy hz] at h'
  rw [le_iff_position hz hx] at hle
  omega

end

/-! ### negation -/

theorem isNaN_neg (x : Float) : (-x).isNaN = x.isNaN := by
  show (unpacked (-x)).isNaN = (unpacked x).isNaN
  rw [unpacked_neg]
  cases unpacked x <;> rfl

theorem neg_neg (x : Float) : - -x = x := by
  have hneg : (unpacked x).neg.neg = unpacked x := by
    cases unpacked x with
    | notANumber => rfl
    | infinity s => cases s <;> rfl
    | zero s => cases s <;> rfl
    | finite s m e hm => cases s <;> rfl
  rw [← pack_unpacked (- -x), unpacked_neg, unpacked_neg, hneg, pack_unpacked]

theorem neg_nonneg_iff (x : Float) : 0 ≤ -x ↔ x ≤ 0 := by
  have hzeros : Alike 0 (-0) := Or.inr ⟨rfl, rfl⟩
  rw [hzeros.le_iff (Alike.refl _), neg_le_neg_iff]

section
variable {x : Float} (hx : x.isNaN = false)
include hx

theorem neg_nonneg_of_not (h : ¬ 0 ≤ x) : 0 ≤ -x :=
  (neg_nonneg_iff x).2 ((le_total (by decide +kernel) hx).resolve_left h)

/-- of a number that is no zero and its negation, one is not negative -/
theorem neg_nonneg_iff_not (hzero : ¬ x == 0) : 0 ≤ -x ↔ ¬ 0 ≤ x := by
  refine ⟨fun hneg hle => hzero ?_, neg_nonneg_of_not hx⟩
  rw [neg_nonneg_iff] at hneg
  exact (beq_iff_le_and_le hx (by decide +kernel)).2 ⟨hneg, hle⟩

end

end LinearProgram.Double
