import LinearProgram.Proofs.Decimal.Rounding

/-!
# Quotients that overflow

The rank nearest to a quotient depends on the quotient alone, and it is that of infinity from one
quotient on: from the middle between the largest double and the power of two above it, which is a
tie that goes to the power of two.

* `le_roundQuotient_iff`        what rounds to an even number at least;
* `Double.rankOf_mul`           the rank depends on the quotient alone;
* `Double.rankOf_eq_infinity_iff`   the quotients that overflow.
-/

namespace LinearProgram

/-! ### the nearest whole number -/

theorem roundQuotient_mul (num den : Nat) {c : Nat} (hc : 0 < c) :
    roundQuotient (num * c) (den * c) = roundQuotient num den := by
  have hlow : 2 * (num % den * c) < den * c ↔ 2 * (num % den) < den := by
    rw [← Nat.mul_assoc]
    exact Nat.mul_lt_mul_right hc
  have hhigh : den * c < 2 * (num % den * c) ↔ den < 2 * (num % den) := by
    rw [← Nat.mul_assoc]
    exact Nat.mul_lt_mul_right hc
  simp only [roundQuotient, Nat.mul_div_mul_right _ _ hc, Nat.mul_mod_mul_right, hlow, hhigh]

/-- a tie goes to the even number, so half a unit below it is enough -/
theorem le_roundQuotient_iff (num n : Nat) {den : Nat} (hden : 0 < den) (heven : n % 2 = 0) :
    n ≤ roundQuotient num den ↔ 2 * (n * den) ≤ 2 * num + den := by
  have hnum : den * (num / den) + num % den = num := Nat.div_add_mod num den
  have hrest : num % den < den := Nat.mod_lt num hden
  rw [roundQuotient]
  generalize num / den = q at hnum ⊢
  generalize num % den = r at hnum hrest ⊢
  subst hnum
  rcases Nat.lt_trichotomy n (q + 1) with hlt | rfl | hgt
  · -- the number is at most the quotient
    have hmul : n * den ≤ q * den := Nat.mul_le_mul_right den (by omega)
    rw [Nat.mul_comm q den] at hmul
    have hle : 2 * (n * den) ≤ 2 * (den * q + r) + den := by omega
    refine ⟨fun _ => hle, fun _ => ?_⟩
    split_ifs <;> omega
  · rw [Nat.add_mul, Nat.one_mul, Nat.mul_comm q den]
    split_ifs <;> omega
  · -- it is more than one above
    have hmul : (q + 2) * den ≤ n * den := Nat.mul_le_mul_right den (by omega)
    rw [Nat.add_mul, Nat.mul_comm q den] at hmul
    refine ⟨fun hle => ?_, fun hle => by omega⟩
    split_ifs at hle <;> omega

namespace Double

/-! ### ranks of quotients -/

theorem rankOf_mul (num den : Nat) {c : Nat} (hc : 0 < c) :
    rankOf (num * c) (den * c) = rankOf num den := by
  have hshift : ∀ k, (den * c) <<< k = (den <<< k) * c := by
    intro k
    rw [Nat.shiftLeft_eq, Nat.shiftLeft_eq, Nat.mul_right_comm]
  rw [rankOf, rankOf, Nat.mul_div_mul_right _ _ hc, hshift, roundQuotient_mul _ _ hc]

theorem rankOf_zero {den : Nat} (hden : 0 < den) : rankOf 0 den = 0 := by
  have hround : roundQuotient 0 (den * 2 ^ 0) = 0 := by
    rw [Nat.pow_zero, Nat.mul_one, roundQuotient, Nat.zero_div, Nat.zero_mod, Nat.mul_zero,
      if_pos hden]
  rw [rankOf_of_binade hden (Nat.mul_pos (Nat.two_pow_pos _) hden)
    (fun hpos => absurd hpos (Nat.lt_irrefl 0)) hround, Nat.zero_mul,
    Nat.zero_add, Nat.min_zero]

theorem rankOf_le_infinityRank (num den : Nat) : rankOf num den ≤ infinityRank :=
  Nat.min_le_left _ _

/-- a quotient by its binade `k`, with spacing `den * 2 ^ k` -/
theorem exists_binade (num : Nat) {den : Nat} (hden : 0 < den) : ∃ k,
    num < 2 ^ 53 * (den * 2 ^ k) ∧ (0 < k → 2 ^ 52 * (den * 2 ^ k) ≤ num) ∧
      rankOf num den = min infinityRank (roundQuotient num (den * 2 ^ k) + k * 2 ^ 52) := by
  refine ⟨Nat.log2 (num / den) - 52, ?_, fun hpos => ?_, ?_⟩
  · have hlt : num / den < 2 ^ (53 + (Nat.log2 (num / den) - 52)) :=
      Nat.lt_of_lt_of_le Nat.lt_log2_self (Nat.pow_le_pow_right (by decide) (by omega))
    rw [Nat.div_lt_iff_lt_mul hden, Nat.pow_add] at hlt
    rwa [Nat.mul_comm den, ← Nat.mul_assoc]
  · have hne : num / den ≠ 0 := by
      intro hzero
      rw [hzero] at hpos
      exact absurd hpos (by decide)
    have hle : 2 ^ (52 + (Nat.log2 (num / den) - 52)) ≤ num / den :=
      (Nat.le_log2 hne).1 (by omega)
    rw [Nat.le_div_iff_mul_le hden, Nat.pow_add] at hle
    rwa [Nat.mul_comm den, ← Nat.mul_assoc]
  · rw [rankOf, Nat.shiftLeft_eq, Nat.shiftLeft_eq]

/-- Counting on from binade to binade, a quotient reaches the one after `b` from half a unit below
it, where the least mantissa of that binade is even. -/
theorem rankOf_of_le_iff (num : Nat) {den : Nat} (hden : 0 < den) {b : Nat}
    (hb : (b + 2) * 2 ^ 52 ≤ infinityRank) :
    (b + 2) * 2 ^ 52 ≤ rankOf num den ↔ (2 ^ 54 - 1) * (den * 2 ^ b) ≤ 2 * num := by
  obtain ⟨k, hlt, hge, hrank⟩ := exists_binade num hden
  have hspacing : 0 < den * 2 ^ k := Nat.mul_pos hden (Nat.two_pow_pos k)
  have hquot : num / (den * 2 ^ k) < 2 ^ 53 := (Nat.div_lt_iff_lt_mul hspacing).2 hlt
  have hcases := roundQuotient_cases num (den * 2 ^ k)
  rw [hrank, Nat.le_min, and_iff_right hb]
  rcases Nat.lt_trichotomy k b with hk | rfl | hk
  · -- the binade of the quotient ends below
    obtain ⟨j, rfl⟩ := Nat.exists_eq_add_of_lt hk
    have hscale : den * 2 ^ (k + j + 1) = 2 * (den * 2 ^ k * 2 ^ j) := by
      rw [Nat.pow_succ, Nat.pow_add]
      ring
    have hmul : den * 2 ^ k * 1 ≤ den * 2 ^ k * 2 ^ j := Nat.mul_le_mul_left _ (Nat.two_pow_pos j)
    rw [hscale]
    generalize den * 2 ^ k * 2 ^ j = c at hmul ⊢
    refine ⟨fun hle => ?_, fun hle => ?_⟩ <;> omega
  · have htie := le_roundQuotient_iff num (2 ^ 53) hspacing (by decide)
    generalize den * 2 ^ k = c at htie ⊢
    generalize roundQuotient num c = r at htie ⊢
    refine ⟨fun hle => ?_, fun hle => ?_⟩ <;> omega
  · -- it begins at that binade or above
    obtain ⟨j, rfl⟩ := Nat.exists_eq_add_of_lt hk
    have hscale : den * 2 ^ (b + j + 1) = 2 * (den * 2 ^ b * 2 ^ j) := by
      rw [Nat.pow_succ, Nat.pow_add]
      ring
    have hmul : den * 2 ^ b * 1 ≤ den * 2 ^ b * 2 ^ j := Nat.mul_le_mul_left _ (Nat.two_pow_pos j)
    have hleast : 2 ^ 52 ≤ num / (den * 2 ^ (b + j + 1)) :=
      (Nat.le_div_iff_mul_le hspacing).2 (hge (by omega))
    have hge := hge (by omega)
    rw [hscale] at hge
    generalize den * 2 ^ b * 2 ^ j = d at hmul hge
    generalize den * 2 ^ b = c at hmul ⊢
    refine ⟨fun hle => ?_, fun hle => ?_⟩ <;> omega

/-- the same for a numerator of `u * 2 ^ c`, where the power of two cancels -/
theorem rankOf_mul_two_pow_of_le_iff (u : Nat) {den : Nat} (hden : 0 < den) {a c : Nat}
    (h : (a + c + 1 + 2) * 2 ^ 52 ≤ infinityRank) :
    (a + c + 1 + 2) * 2 ^ 52 ≤ rankOf (u * 2 ^ c) den ↔ (2 ^ 54 - 1) * 2 ^ a * den ≤ u := by
  have hscale : (2 ^ 54 - 1) * (den * 2 ^ (a + c + 1)) =
      2 * 2 ^ c * ((2 ^ 54 - 1) * 2 ^ a * den) := by
    rw [Nat.pow_succ, Nat.pow_add]
    ring
  have hunits : 2 * (u * 2 ^ c) = 2 * 2 ^ c * u := by ring
  have hpow : 0 < 2 * 2 ^ c := Nat.mul_pos Nat.two_pos (Nat.two_pow_pos c)
  rw [rankOf_of_le_iff _ hden h, hscale, hunits, Nat.mul_le_mul_left_iff hpow]

theorem unitsPerOne_eq : unitsPerOne = 2 ^ 1074 := by decide +kernel

/-- `2 ^ 1024 - 2 ^ 970`, half a unit above the largest double -/
def overflowBound : Nat := (2 ^ 54 - 1) * 2 ^ 970

theorem overflowBound_pos : 0 < overflowBound := by decide +kernel

theorem rankOf_eq_infinity_iff (u : Nat) {den : Nat} (hden : 0 < den) :
    rankOf (u * unitsPerOne) den = infinityRank ↔ overflowBound * den ≤ u := by
  have htop : (970 + 1074 + 1 + 2) * 2 ^ 52 ≤ infinityRank := by rw [infinityRank_eq]
  have hle := rankOf_le_infinityRank (u * unitsPerOne) den
  rw [overflowBound, ← rankOf_mul_two_pow_of_le_iff u hden htop, ← unitsPerOne_eq]
  rw [infinityRank_eq] at hle ⊢
  exact ⟨fun heq => heq.ge, fun hge => Nat.le_antisymm hle hge⟩

end Double

end LinearProgram
