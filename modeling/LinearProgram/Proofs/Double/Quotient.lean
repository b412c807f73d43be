import LinearProgram.Proofs.Decimal.Overflow
import LinearProgram.Proofs.Double.Order

/-!
# The quotient of two doubles

A division works out a mantissa that may be longer than a double has room for, with a bit for the
first half that was cut off and one for all the rest.  These are the whole part of a quotient, and
what there is beyond it, so that the mantissa is rounded to the whole number nearest to the
quotient.  The result is the double nearest to the exact quotient, or infinity beyond all doubles.

* `Located`                  a mantissa with its two bits stands for a quotient;
* `roundedTo_quotient`       the rank that a quotient is rounded to;
* `rank_div`, `isNegative_div`   the quotient of two finite doubles;
* `rank_div_eq_infinity_iff`   and when it overflows.
-/

namespace LinearProgram.Double
open Float.Model Float.Model.UnpackedFloat

/-! ### extended mantissas -/

/-- The mantissa is the whole part of `num / den`, the round bit stands for half a unit of the rest,
and the sticky bit for anything else of it. -/
structure Located (em : ExtendedMantissa) (num den : Nat) : Prop where
  mantissa_eq : em.mantissa = num / den
  roundBit_iff : em.roundBit ↔ den ≤ 2 * (num % den)
  stickyBit_iff : em.stickyBit ↔ num % den ≠ 0 ∧ 2 * (num % den) ≠ den

variable {em : ExtendedMantissa} {num den : Nat}

theorem located_of_fraction (num : Nat) (hden : 0 < den) :
    Located (.ofMantissaAndAccuracy (num / den) (accuracyOfFraction (num % den) den)) num den := by
  rw [accuracyOfFraction]
  by_cases hzero : num % den = 0
  · rw [if_pos hzero]
    exact ⟨rfl, ⟨nofun, fun h => by omega⟩, ⟨nofun, fun h => absurd hzero h.1⟩⟩
  · rw [if_neg hzero]
    rcases lt_trichotomy (2 * (num % den)) den with hlt | heq | hgt
    · rw [compare_lt_iff_lt.2 hlt]
      exact ⟨rfl, ⟨nofun, fun h => by omega⟩, ⟨fun _ => ⟨hzero, hlt.ne⟩, fun _ => rfl⟩⟩
    · rw [compare_eq_iff_eq.2 heq]
      exact ⟨rfl, ⟨fun _ => heq.ge, fun _ => rfl⟩, ⟨nofun, fun h => absurd heq h.2⟩⟩
    · rw [compare_gt_iff_gt.2 hgt]
      exact ⟨rfl, ⟨fun _ => hgt.le, fun _ => rfl⟩, ⟨fun _ => ⟨hzero, hgt.ne'⟩, fun _ => rfl⟩⟩

theorem Located.roundedMantissa (h : Located em num den) :
    em.roundedMantissa = roundQuotient num den := by
  obtain ⟨m, roundBit, stickyBit⟩ := em
  obtain ⟨hmantissa, hround, hsticky⟩ := h
  obtain rfl : m = num / den := hmantissa
  have hround : roundBit = true ↔ den ≤ 2 * (num % den) := hround
  have hsticky : stickyBit = true ↔ num % den ≠ 0 ∧ 2 * (num % den) ≠ den := hsticky
  rw [roundQuotient]
  cases roundBit <;> cases stickyBit <;>
    simp only [Bool.false_eq_true, false_iff, true_iff] at hround hsticky
  · show num / den = _
    split_ifs <;> omega
  · show num / den = _
    split_ifs <;> omega
  · show num / den + num / den % 2 = _
    split_ifs <;> omega
  · show num / den + 1 = _
    split_ifs <;> omega

theorem Located.shiftRightOne (h : Located em num den) (hden : 0 < den) :
    Located em.shiftRightOne num (den * 2) := by
  have hrest : num % den < den := Nat.mod_lt num hden
  have hmod : num % (den * 2) = num % den + den * (num / den % 2) := Nat.mod_mul
  obtain ⟨hmantissa, hround, hsticky⟩ := h
  have hparity := Nat.mod_two_eq_zero_or_one (num / den)
  refine ⟨?_, ?_, ?_⟩
  · show em.mantissa / 2 = _
    rw [hmantissa, Nat.div_div_eq_div_mul]
  · show (em.mantissa % 2 != 0) = true ↔ _
    rw [bne_iff_ne, hmantissa, hmod]
    rcases hparity with hparity | hparity <;> rw [hparity] <;> omega
  · show (em.roundBit || em.stickyBit) = true ↔ _
    rw [Bool.or_eq_true, hround, hsticky, hmod]
    rcases hparity with hparity | hparity <;> rw [hparity] <;> omega

theorem Located.shiftRight (h : Located em num den) (hden : 0 < den) (k : Nat) :
    Located (em >>> k) num (den * 2 ^ k) := by
  induction k with
  | zero => rwa [Nat.pow_zero, Nat.mul_one]
  | succ k ih =>
    rw [Nat.pow_succ, ← Nat.mul_assoc]
    exact ih.shiftRightOne (Nat.mul_pos hden (Nat.two_pow_pos k))

/-! ### rounding -/

theorem level_finite (s : Sign) {m : Nat} (e : Int) (hm : 0 < m) :
    level (.finite s m e hm) = min infinityRank (m + (e + 1074).toNat * 2 ^ 52) := rfl

/-- a number, rounded: what it is packed into -/
structure RoundedTo (u : UnpackedFloat) (negative : Bool) (rank : Nat) : Prop where
  rounded : Rounded u
  minus_eq : minus u = negative
  level_eq : level u = rank

theorem roundedTo_roundWithAccuracy (s : Sign) {q : Nat} {e e' : Int} {accuracy : Accuracy}
    (hfirst : shiftToTargetExponent Format.binary64 q e accuracy = (em, e'))
    (hle : em.roundedMantissa ≤ 2 ^ 53)
    (hlow : 2 ^ 52 ≤ em.roundedMantissa ∧ -1074 ≤ e' ∨ e' = -1074) :
    RoundedTo (roundWithAccuracy Format.binary64 s q e accuracy) (s == .negative)
      (min infinityRank (em.roundedMantissa + (e' + 1074).toNat * 2 ^ 52)) := by
  have hsecond := shiftToTargetExponent_rounded hle hlow
  unfold roundWithAccuracy
  rw [hfirst]
  dsimp only
  rw [hsecond]
  generalize em.roundedMantissa = r at hle hlow ⊢
  by_cases htop : r = 2 ^ 53
  · rw [if_pos htop]
    dsimp only
    rw [dif_neg (by decide)]
    refine ⟨⟨by decide, Or.inl ⟨le_rfl, by omega⟩⟩, rfl, ?_⟩
    rw [level_finite, htop]
    congr 1
    omega
  · rw [if_neg htop]
    dsimp only
    by_cases hzero : r = 0
    · rw [dif_pos hzero]
      refine ⟨trivial, rfl, ?_⟩
      have he : (e' + 1074).toNat = 0 := by omega
      rw [hzero, he, Nat.zero_mul, Nat.min_zero]
      rfl
    · rw [dif_neg hzero]
      exact ⟨⟨by omega, hlow⟩, rfl, level_finite s e' _⟩

/-- how far a mantissa is shifted to fit, if it is long enough or its exponent is low enough -/
theorem exists_shift {q : Nat} {e : Int} (he : e ≤ -1074 ∨ 2 ^ 52 ≤ q) : ∃ k : Nat,
    Format.binary64.targetExponent (totalExponent q e) = e + k ∧ -1074 ≤ e + k ∧
      q < 2 ^ (53 + k) ∧ (-1074 < e + k → 2 ^ (52 + k) ≤ q) := by
  have hlong : e ≤ -1074 ∨ 52 ≤ q.log2 := by
    rcases he with he | hq
    · exact Or.inl he
    · exact Or.inr ((Nat.le_log2 (by omega)).2 hq)
  refine ⟨(max ((q.log2 : Int) + 1 + e - 53) (-1074) - e).toNat, ?_, ?_, ?_, fun habove => ?_⟩
  · rw [targetExponent_binary64, totalExponent]
    omega
  · omega
  · exact Nat.lt_of_lt_of_le Nat.lt_log2_self (Nat.pow_le_pow_right (by decide) (by omega))
  · have hne : q ≠ 0 := by
      rintro rfl
      have hlog : Nat.log2 0 = 0 := by decide
      omega
    exact (Nat.le_log2 hne).1 (by omega)

/-- the rank of a quotient that is scaled by a power of two, from the shift of its mantissa -/
theorem rankOf_of_shift (hden : 0 < den) {e : Int} {k : Nat} (hbottom : -1074 ≤ e + k)
    (hlt : num < 2 ^ 53 * (den * 2 ^ k)) (hge : -1074 < e + k → 2 ^ 52 * (den * 2 ^ k) ≤ num) :
    rankOf (num * 2 ^ (e + 1074).toNat) (den * 2 ^ (-(e + 1074)).toNat) =
      min infinityRank (roundQuotient num (den * 2 ^ k) + (e + k + 1074).toNat * 2 ^ 52) := by
  have hpow := Nat.two_pow_pos (e + 1074).toNat
  have hbinade : (-(e + 1074)).toNat + (e + k + 1074).toNat = k + (e + 1074).toNat := by omega
  have hscale : den * 2 ^ (-(e + 1074)).toNat * 2 ^ (e + k + 1074).toNat =
      den * 2 ^ k * 2 ^ (e + 1074).toNat := by
    rw [Nat.mul_assoc, ← Nat.pow_add, hbinade, Nat.pow_add, Nat.mul_assoc]
  apply rankOf_of_binade (Nat.mul_pos hden (Nat.two_pow_pos _))
  · rw [Nat.pow_add, Nat.mul_assoc, Nat.mul_comm (2 ^ (e + k + 1074).toNat), hscale,
      ← Nat.mul_assoc]
    exact Nat.mul_lt_mul_of_pos_right hlt hpow
  · intro hpos
    rw [Nat.pow_add, Nat.mul_assoc, Nat.mul_comm (2 ^ (e + k + 1074).toNat), hscale,
      ← Nat.mul_assoc]
    exact Nat.mul_le_mul_right _ (hge (by omega))
  · rw [hscale, roundQuotient_mul _ _ hpow]

/-- Rounding a quotient, scaled by a power of two, leads to the rank nearest to it.  The mantissa
has to be long enough, or the exponent low enough, for rounding to cut off what is beyond it. -/
theorem roundedTo_quotient (s : Sign) (num : Nat) (hden : 0 < den) {e : Int}
    (he : e ≤ -1074 ∨ 2 ^ 52 ≤ num / den) :
    RoundedTo (roundWithAccuracy Format.binary64 s (num / den) e
        (accuracyOfFraction (num % den) den)) (s == .negative)
      (rankOf (num * 2 ^ (e + 1074).toNat) (den * 2 ^ (-(e + 1074)).toNat)) := by
  obtain ⟨k, htarget, hbottom, hlt, hge⟩ := exists_shift he
  have hspacing : 0 < den * 2 ^ k := Nat.mul_pos hden (Nat.two_pow_pos k)
  have hfirst : shiftToTargetExponent Format.binary64 (num / den) e
      (accuracyOfFraction (num % den) den) =
        (ExtendedMantissa.ofMantissaAndAccuracy (num / den) (accuracyOfFraction (num % den) den) >>>
          k, e + k) := by
    unfold shiftToTargetExponent shiftToExponent
    rw [htarget]
    dsimp only
    rw [show (e + (k : Int) - e).toNat = k by omega]
  have hmantissa := ((located_of_fraction num hden).shiftRight hden k).roundedMantissa
  rw [Nat.div_lt_iff_lt_mul hden, Nat.pow_add, Nat.mul_assoc, Nat.mul_comm (2 ^ k)] at hlt
  rw [Nat.le_div_iff_mul_le hden, Nat.pow_add, Nat.mul_assoc, Nat.mul_comm (2 ^ k)] at hge
  -- the rounded mantissa has 53 bits, or is the next power of two
  have hquot : num / (den * 2 ^ k) < 2 ^ 53 := (Nat.div_lt_iff_lt_mul hspacing).2 hlt
  have hquot' : -1074 < e + k → 2 ^ 52 ≤ num / (den * 2 ^ k) := fun habove =>
    (Nat.le_div_iff_mul_le hspacing).2 (hge habove)
  have hcases := roundQuotient_cases num (den * 2 ^ k)
  have hresult := roundedTo_roundWithAccuracy s hfirst (by rw [hmantissa]; omega)
    (by rw [hmantissa]; omega)
  rwa [hmantissa, ← rankOf_of_shift hden hbottom hlt hge] at hresult

/-! ### division -/

/-- of powers of two only their quotient matters -/
theorem rankOf_mul_two_pow (m n : Nat) {a b c d : Nat} (h : a + d = c + b) :
    rankOf (m * 2 ^ a) (n * 2 ^ b) = rankOf (m * 2 ^ c) (n * 2 ^ d) := by
  have hnum : m * 2 ^ a * 2 ^ d = m * 2 ^ c * 2 ^ b := by
    rw [Nat.mul_assoc, ← Nat.pow_add, h, Nat.pow_add, Nat.mul_assoc]
  have hden : n * 2 ^ b * 2 ^ d = n * 2 ^ d * 2 ^ b := Nat.mul_right_comm _ _ _
  rw [← rankOf_mul (m * 2 ^ a) (n * 2 ^ b) (Nat.two_pow_pos d), hnum, hden,
    rankOf_mul _ _ (Nat.two_pow_pos b)]

/-- a division takes so many bits of the first mantissa that the quotient has enough of them -/
theorem long_of_divCore {m n : Nat} (hm : 0 < m) (hn : 0 < n) {e f t : Int}
    (ht : t = min (e - f)
      (Format.binary64.targetExponent (totalExponent m e - totalExponent n f))) :
    t ≤ -1074 ∨ 2 ^ 52 ≤ m <<< (e - f - t).toNat / n := by
  rw [targetExponent_binary64, totalExponent, totalExponent] at ht
  by_cases hlow : t ≤ -1074
  · exact Or.inl hlow
  · have hbits : n.log2 + 53 ≤ m.log2 + (e - f - t).toNat := by omega
    refine Or.inr ((Nat.le_div_iff_mul_le hn).2 ?_)
    rw [Nat.shiftLeft_eq]
    calc 2 ^ 52 * n ≤ 2 ^ 52 * 2 ^ (n.log2 + 1) := Nat.mul_le_mul_left _ Nat.lt_log2_self.le
      _ = 2 ^ (n.log2 + 53) := by rw [← Nat.pow_add]; congr 1; omega
      _ ≤ 2 ^ (m.log2 + (e - f - t).toNat) := Nat.pow_le_pow_right (by decide) hbits
      _ = 2 ^ m.log2 * 2 ^ (e - f - t).toNat := Nat.pow_add _ _ _
      _ ≤ m * 2 ^ (e - f - t).toNat := Nat.mul_le_mul_right _ (Nat.log2_self_le hm.ne')

theorem roundedTo_div {s t : Sign} {m n : Nat} {e f : Int} (hm : 0 < m) (hn : 0 < n)
    (he : -1074 ≤ e) (hf : -1074 ≤ f) :
    RoundedTo (div Format.binary64 (.finite s m e hm) (.finite t n f hn)) (s / t == .negative)
      (rankOf (m * 2 ^ ((e + 1074).toNat + 1074)) (n * 2 ^ (f + 1074).toNat)) := by
  obtain ⟨g, hg⟩ : ∃ g, g = min (e - f)
      (Format.binary64.targetExponent (totalExponent m e - totalExponent n f)) := ⟨_, rfl⟩
  have hquotient := roundedTo_quotient (s / t) (m <<< (e - f - g).toNat) hn (long_of_divCore hm hn hg)
  have hrank : rankOf (m <<< (e - f - g).toNat * 2 ^ (g + 1074).toNat)
      (n * 2 ^ (-(g + 1074)).toNat) =
        rankOf (m * 2 ^ ((e + 1074).toNat + 1074)) (n * 2 ^ (f + 1074).toNat) := by
    rw [Nat.shiftLeft_eq, Nat.mul_assoc, ← Nat.pow_add]
    exact rankOf_mul_two_pow m n (by omega)
  rw [hrank, hg] at hquotient
  exact hquotient

section
variable {x y : Float}

theorem div_eq (x y : Float) :
    x / y = Float.ofModel (Float.Model.pack (div Format.binary64 (unpacked x) (unpacked y))) := rfl

theorem negative_div (s t : Sign) :
    (s / t == .negative) = ((s == .negative) != (t == .negative)) := by
  cases s <;> cases t <;> rfl

variable (hx : x.isFinite) (hy : y.isFinite) (h0 : ¬ y == 0)
include hx hy h0

theorem roundedTo_unpacked_div :
    RoundedTo (div Format.binary64 (unpacked x) (unpacked y)) (isNegative x != isNegative y)
      (rankOf (units (rank x) * unitsPerOne) (units (rank y))) := by
  have hcanonical := canonical_unpacked x
  have hcanonical' := canonical_unpacked y
  rw [isNegative_eq_minus, isNegative_eq_minus]
  obtain ht | ⟨t, n, f, hn, ht⟩ := (isFinite_iff y).1 hy
  · exact absurd ((beq_zero_iff y).2 ht) h0
  rw [units_eq ht]
  rw [ht] at hcanonical' ⊢
  obtain ⟨s, hs⟩ | ⟨s, m, e, hm, hs⟩ := (isFinite_iff x).1 hx
  · have hrank : rank x = 0 := by
      rw [rank_eq_level, hs]
      rfl
    have hunits : units 0 = 0 := rfl
    rw [hs, hrank, hunits, Nat.zero_mul, rankOf_zero (Nat.mul_pos hn (Nat.two_pow_pos _))]
    exact ⟨trivial, negative_div s t, rfl⟩
  · rw [units_eq hs, unitsPerOne_eq, Nat.mul_assoc, ← Nat.pow_add]
    rw [hs] at hcanonical ⊢
    obtain ⟨-, -, hlow⟩ := hcanonical
    obtain ⟨-, -, hlow'⟩ := hcanonical'
    have hsign : (minus (.finite s m e hm) != minus (.finite t n f hn)) = (s / t == .negative) :=
      (negative_div s t).symm
    rw [hsign]
    exact roundedTo_div hm hn (by omega) (by omega)

/-- Division is exact but for rounding to the nearest double. -/
theorem rank_div : rank (x / y) = rankOf (units (rank x) * unitsPerOne) (units (rank y)) := by
  have h := roundedTo_unpacked_div hx hy h0
  rw [div_eq, rank_pack h.rounded, h.level_eq]

theorem isNegative_div : isNegative (x / y) = (isNegative x != isNegative y) := by
  have h := roundedTo_unpacked_div hx hy h0
  rw [div_eq, isNegative_pack h.rounded, h.minus_eq]

/-! ### overflow -/

/-- in magnitude, the exact quotient is half a unit or more above the largest double -/
def Overflows (x y : Float) : Prop := overflowBound * units (rank y) ≤ units (rank x)

theorem rank_div_eq_infinity_iff : rank (x / y) = infinityRank ↔ Overflows x y := by
  have hpos : 0 < units (rank y) := by
    have hrank := rank_pos_of_not_zero hy h0
    have hzero := units_zero_iff (rank y)
    omega
  rw [rank_div hx hy h0, rankOf_eq_infinity_iff _ hpos, Overflows]

end

end LinearProgram.Double
