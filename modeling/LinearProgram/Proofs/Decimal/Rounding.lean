import Mathlib.Algebra.Order.Field.Basic
import Mathlib.Algebra.Order.Field.Rat
import Mathlib.Data.Nat.Cast.Order.Field
import Mathlib.Tactic.Linarith
import Mathlib.Tactic.NormNum
import Mathlib.Tactic.Ring
import LinearProgram.Decimal.Shortest

/-!
# What rounds to a double

The numbers in the interval of a rank are those that round to it: a rank is a mantissa and a
binade, a quotient in the interval lies in the binade of the rank, or in the one below for the
least mantissa, and there the nearest whole number is the mantissa.

* `roundQuotient_eq`           the nearest whole number, the even one of two;
* `Double.exists_mantissa`     a rank as a mantissa and a binade;
* `Double.RoundsTo`            the interval of a rank;
* `Double.rankOf_eq`           what lies in the interval has the rank.
-/

namespace LinearProgram

theorem roundQuotient_cases (num den : Nat) :
    roundQuotient num den = num / den ∨ roundQuotient num den = num / den + 1 := by
  have hmod := Nat.mod_two_eq_zero_or_one (num / den)
  rw [roundQuotient]
  split_ifs <;> omega

theorem roundQuotient_eq {num den m : Nat} (hlow : 2 * (m * den) ≤ 2 * num + den)
    (hhigh : 2 * num ≤ 2 * (m * den) + den)
    (hodd : m % 2 = 1 → 2 * (m * den) < 2 * num + den ∧ 2 * num < 2 * (m * den) + den)
    (hden : 0 < den) : roundQuotient num den = m := by
  have hnum : den * (num / den) + num % den = num := Nat.div_add_mod num den
  have hrest : num % den < den := Nat.mod_lt num hden
  rw [roundQuotient]
  generalize num / den = q at hnum ⊢
  generalize num % den = r at hnum hrest ⊢
  subst hnum
  -- the quotient is the mantissa, or one below
  have hle : m ≤ q + 1 := by
    by_contra hlt
    have hmul : (q + 2) * den ≤ m * den := Nat.mul_le_mul_right den (by omega)
    rw [Nat.add_mul, Nat.mul_comm q den] at hmul
    omega
  have hge : q ≤ m := by
    by_contra hlt
    have hmul : (m + 1) * den ≤ q * den := Nat.mul_le_mul_right den (by omega)
    rw [Nat.add_mul, Nat.mul_comm q den] at hmul
    omega
  obtain rfl | rfl : m = q ∨ m = q + 1 := by omega
  · rw [Nat.mul_comm m den] at hlow hhigh hodd
    split_ifs <;> omega
  · rw [Nat.add_mul, Nat.one_mul, Nat.mul_comm q den] at hlow hhigh hodd
    split_ifs <;> omega

namespace Double

/-! ### ranks -/

theorem infinityRank_eq : infinityRank = 2047 * 2 ^ 52 := rfl

/-- A rank as a mantissa and a binade, with its interval: `low` is the lower end, in quarters of the
spacing.  Only above the least mantissa of a binade is the spacing below half of that above. -/
structure Parts (rank m b low : Nat) : Prop where
  rank_eq : rank = m + b * 2 ^ 52
  pos : 0 < m
  lt : m < 2 ^ 53
  ge : 0 < b → 2 ^ 52 ≤ m
  units_eq : units rank = m * 2 ^ b
  interval_eq : interval rank = (low * 2 ^ b, (4 * m + 2) * 2 ^ b)
  low_eq : low + 2 = 4 * m ∧ (0 < b → 2 ^ 52 < m) ∨ low + 1 = 4 * m ∧ m = 2 ^ 52 ∧ 0 < b

theorem units_eq_ite (rank : Nat) : units rank =
    if rank < 2 ^ 52 then rank else (2 ^ 52 + rank % 2 ^ 52) <<< binade rank := rfl

theorem interval_eq_ite (rank : Nat) : interval rank =
    (if rank % 2 ^ 52 = 0 ∧ 0 < binade rank then 4 * units rank - 1 <<< binade rank
      else 4 * units rank - 2 * 1 <<< binade rank, 4 * units rank + 2 * 1 <<< binade rank) := rfl

theorem exists_mantissa {rank : Nat} (hpos : 0 < rank) : ∃ m b,
    rank = m + b * 2 ^ 52 ∧ 0 < m ∧ m < 2 ^ 53 ∧ (0 < b → 2 ^ 52 ≤ m) ∧ binade rank = b ∧
      units rank = m * 2 ^ b ∧ (rank % 2 ^ 52 = 0 → 0 < b → m = 2 ^ 52) := by
  have hb : binade rank = rank / 2 ^ 52 - 1 := rfl
  by_cases hsmall : rank < 2 ^ 52
  · rw [units_eq_ite, if_pos hsmall]
    exact ⟨rank, 0, by omega, hpos, by omega, nofun, by omega, by omega, by omega⟩
  · rw [units_eq_ite, if_neg hsmall, Nat.shiftLeft_eq]
    exact ⟨2 ^ 52 + rank % 2 ^ 52, binade rank, by omega, by omega, by omega, by omega, rfl, rfl,
      by omega⟩

theorem exists_parts {rank : Nat} (hpos : 0 < rank) : ∃ m b low, Parts rank m b low := by
  obtain ⟨m, b, hrank, hm, hlt, hge, hbinade, hunits, hleast⟩ := exists_mantissa hpos
  have hgap := interval_eq_ite rank
  rw [hbinade, hunits, Nat.one_shiftLeft, ← Nat.mul_assoc, ← Nat.add_mul, ← Nat.sub_mul] at hgap
  by_cases hnarrow : rank % 2 ^ 52 = 0 ∧ 0 < b
  · rw [if_pos hnarrow] at hgap
    refine ⟨m, b, 4 * m - 1, hrank, hm, hlt, hge, hunits, ?_,
      Or.inr ⟨by omega, hleast hnarrow.1 hnarrow.2, hnarrow.2⟩⟩
    rw [hgap, Nat.sub_mul, Nat.one_mul]
  · rw [if_neg hnarrow] at hgap
    exact ⟨m, b, 4 * m - 2, hrank, hm, hlt, hge, hunits, hgap,
      Or.inl (by omega)⟩

/-! ### intervals -/

/-- the number of quarter units rounds to the rank -/
def RoundsTo (rank : Nat) (q : ℚ) : Prop :=
  if rank % 2 = 0 then ((interval rank).1 : ℚ) ≤ q ∧ q ≤ (interval rank).2
  else ((interval rank).1 : ℚ) < q ∧ q < (interval rank).2

theorem RoundsTo.bounds {rank : Nat} {q : ℚ} (h : RoundsTo rank q) :
    ((interval rank).1 : ℚ) ≤ q ∧ q ≤ (interval rank).2 := by
  rw [RoundsTo] at h
  split_ifs at h
  · exact h
  · exact ⟨h.1.le, h.2.le⟩

theorem RoundsTo.strict {rank : Nat} {q : ℚ} (h : RoundsTo rank q) (hodd : rank % 2 = 1) :
    ((interval rank).1 : ℚ) < q ∧ q < (interval rank).2 := by
  rw [RoundsTo, if_neg (by omega)] at h
  exact h

/-! ### rounding -/

theorem log2_quotient {num den b : Nat} (hden : 0 < den) (hlt : num < 2 ^ (53 + b) * den)
    (hge : 0 < b → 2 ^ (52 + b) * den ≤ num) : Nat.log2 (num / den) - 52 = b := by
  have hquot : num / den < 2 ^ (53 + b) := (Nat.div_lt_iff_lt_mul hden).2 hlt
  rcases Nat.eq_zero_or_pos b with rfl | hb
  · rcases Nat.eq_zero_or_pos (num / den) with hzero | hpos
    · rw [hzero]
      rfl
    · have hlog := (Nat.log2_lt hpos.ne').2 hquot
      omega
  · have hle : 2 ^ (52 + b) ≤ num / den := (Nat.le_div_iff_mul_le hden).2 (hge hb)
    have hne : num / den ≠ 0 := by
      have hpos := Nat.two_pow_pos (52 + b)
      omega
    have hlog := (Nat.log2_lt hne).2 hquot
    have hlog' := (Nat.le_log2 hne).2 hle
    omega

/-- what has its mantissa in its own binade is rounded to it -/
theorem rankOf_of_binade {num den m b : Nat} (hden : 0 < den) (hlt : num < 2 ^ (53 + b) * den)
    (hge : 0 < b → 2 ^ (52 + b) * den ≤ num)
    (hround : roundQuotient num (den * 2 ^ b) = m) :
    rankOf num den = min infinityRank (m + b * 2 ^ 52) := by
  rw [rankOf, log2_quotient hden hlt hge, Nat.shiftLeft_eq, hround, Nat.shiftLeft_eq]

section
variable {rank m b low num den : Nat} (hparts : Parts rank m b low)
include hparts

/-- below the least mantissa of a binade the spacing is that of the binade below -/
theorem Parts.rankOf_below (hfinite : rank < infinityRank) (hden : 0 < den)
    (hlow : low * (2 ^ b * den) ≤ 4 * num) (hlt : num < 2 ^ 52 * (2 ^ b * den)) (hb : 0 < b) :
    rankOf num den = rank := by
  obtain ⟨hlow', hm⟩ | ⟨hlow', hm, -⟩ := hparts.low_eq
  · have hmul : (2 ^ 52 + 1) * (2 ^ b * den) ≤ m * (2 ^ b * den) := Nat.mul_le_mul_right _ (hm hb)
    have hends : low * (2 ^ b * den) + 2 * (2 ^ b * den) = 4 * (m * (2 ^ b * den)) := by
      rw [← Nat.add_mul, hlow', Nat.mul_assoc]
    omega
  · obtain ⟨c, rfl⟩ := Nat.exists_eq_add_of_lt hb
    have hrank := hparts.rank_eq
    obtain rfl : low = 2 ^ 54 - 1 := by omega
    have hspacing : 2 ^ (0 + c + 1) * den = 2 * (den * 2 ^ c) := by
      rw [Nat.zero_add, Nat.pow_succ]
      ring
    rw [hspacing] at hlow hlt
    have hpos : 0 < den * 2 ^ c := Nat.mul_pos hden (Nat.two_pow_pos c)
    have htop : 2 ^ (53 + c) * den = 2 ^ 53 * (den * 2 ^ c) := by rw [Nat.pow_add]; ring
    have hbottom : 2 ^ (52 + c) * den = 2 ^ 52 * (den * 2 ^ c) := by rw [Nat.pow_add]; ring
    have hround : roundQuotient num (den * 2 ^ c) = 2 ^ 53 :=
      roundQuotient_eq (by omega) (by omega) (by omega) hpos
    have hrank' : 2 ^ 53 + c * 2 ^ 52 = rank := by omega
    rw [rankOf_of_binade hden (by omega) (by omega) hround, hrank', Nat.min_eq_right hfinite.le]

theorem Parts.rankOf_eq (hfinite : rank < infinityRank) (hden : 0 < den)
    (hlow : low * (2 ^ b * den) ≤ 4 * num) (hhigh : 4 * num ≤ (4 * m + 2) * (2 ^ b * den))
    (hodd : rank % 2 = 1 →
      low * (2 ^ b * den) < 4 * num ∧ 4 * num < (4 * m + 2) * (2 ^ b * den)) :
    rankOf num den = rank := by
  by_cases hbelow : 0 < b ∧ num < 2 ^ 52 * (2 ^ b * den)
  · exact hparts.rankOf_below hfinite hden hlow hbelow.2 hbelow.1
  · have hparity : m % 2 = 1 → rank % 2 = 1 := by
      rw [hparts.rank_eq]
      omega
    have hpos : 0 < 2 ^ b * den := Nat.mul_pos (Nat.two_pow_pos b) hden
    have htop : 2 ^ (53 + b) * den = 2 ^ 53 * (2 ^ b * den) := by rw [Nat.pow_add, Nat.mul_assoc]
    have hbottom : 2 ^ (52 + b) * den = 2 ^ 52 * (2 ^ b * den) := by
      rw [Nat.pow_add, Nat.mul_assoc]
    have hupper : (4 * m + 2) * (2 ^ b * den) = 4 * (m * (2 ^ b * den)) + 2 * (2 ^ b * den) := by
      rw [Nat.add_mul, Nat.mul_assoc]
    have hlower : 4 * (m * (2 ^ b * den)) ≤ low * (2 ^ b * den) + 2 * (2 ^ b * den) := by
      rw [← Nat.add_mul, ← Nat.mul_assoc]
      refine Nat.mul_le_mul_right _ ?_
      have hends := hparts.low_eq
      omega
    have hlast : m * (2 ^ b * den) ≤ (2 ^ 53 - 1) * (2 ^ b * den) :=
      Nat.mul_le_mul_right _ (Nat.le_sub_one_of_lt hparts.lt)
    have hround : roundQuotient num (den * 2 ^ b) = m := by
      rw [Nat.mul_comm den]
      exact roundQuotient_eq (by omega) (by omega) (by omega) hpos
    rw [rankOf_of_binade hden (by omega) (by omega) hround, ← hparts.rank_eq,
      Nat.min_eq_right hfinite.le]

end

/-- what lies in the interval of a rank has that rank -/
theorem rankOf_eq {rank num den : Nat} (hpos : 0 < rank) (hfinite : rank < infinityRank)
    (hden : 0 < den) (h : RoundsTo rank (4 * num / den)) : rankOf num den = rank := by
  obtain ⟨m, b, low, hparts⟩ := exists_parts hpos
  have hden' : (0 : ℚ) < den := Nat.cast_pos.2 hden
  obtain ⟨hlow, hhigh⟩ := h.bounds
  rw [hparts.interval_eq] at hlow hhigh
  rw [le_div_iff₀ hden'] at hlow
  rw [div_le_iff₀ hden'] at hhigh
  refine hparts.rankOf_eq hfinite hden (by rw [← Nat.mul_assoc]; exact_mod_cast hlow)
    (by rw [← Nat.mul_assoc]; exact_mod_cast hhigh) fun hodd => ?_
  obtain ⟨hlow, hhigh⟩ := h.strict hodd
  rw [hparts.interval_eq] at hlow hhigh
  rw [lt_div_iff₀ hden'] at hlow
  rw [div_lt_iff₀ hden'] at hhigh
  exact ⟨by rw [← Nat.mul_assoc]; exact_mod_cast hlow,
    by rw [← Nat.mul_assoc]; exact_mod_cast hhigh⟩

end Double

end LinearProgram
