import Mathlib.Tactic.FieldSimp
import Mathlib.Tactic.Positivity
import LinearProgram.Proofs.Decimal.Digits
import LinearProgram.Proofs.Decimal.Rounding

/-!
# The shortest decimal rounds to its double

What the search on a grid returns lies in the interval of the rank, and a grid whose spacing is
less than the width of the interval has a point in it.  Seventeen digits make such a grid.

* `Double.onGrid?_roundsTo`   what a grid gives;
* `Double.onGrid?_isSome`     when a grid gives something;
* `Double.shortest_roundsTo`  the shortest decimal.
-/

namespace LinearProgram

/-! ### the neighbours of a quotient -/

theorem nearest_cases (num : Nat) {den : Nat} (hden : 0 < den) :
    (2 * num + den) / (2 * den) = num / den ∨ (2 * num + den) / (2 * den) = num / den + 1 := by
  have hnum : den * (num / den) + num % den = num := Nat.div_add_mod num den
  have hrest : num % den < den := Nat.mod_lt num hden
  generalize num / den = q at hnum ⊢
  generalize num % den = r at hnum hrest
  have hsum : 2 * num + den = (2 * r + den) + 2 * den * q := by
    rw [← hnum]
    ring
  rw [hsum, Nat.add_mul_div_left _ _ (by omega : 0 < 2 * den)]
  have hle : (2 * r + den) / (2 * den) < 2 := by
    rw [Nat.div_lt_iff_lt_mul (by omega)]
    omega
  generalize (2 * r + den) / (2 * den) = k at hle ⊢
  omega

namespace Double

variable {rank : Nat} {grid : ℤ} {tieUp : Bool}

/-! ### a grid -/

theorem roundsTo_div_iff {num den : Nat} (hden : 0 < den) : RoundsTo rank ((num : ℚ) / den) ↔
    if rank % 2 = 0 then (interval rank).1 * den ≤ num ∧ num ≤ (interval rank).2 * den
    else (interval rank).1 * den < num ∧ num < (interval rank).2 * den := by
  have hden' : (0 : ℚ) < den := Nat.cast_pos.2 hden
  rw [RoundsTo, le_div_iff₀ hden', div_le_iff₀ hden', lt_div_iff₀ hden', div_lt_iff₀ hden']
  norm_cast

/-- the double itself lies inside of its interval -/
theorem interval_lt (hpos : 0 < rank) :
    (interval rank).1 < 4 * units rank ∧ 4 * units rank < (interval rank).2 := by
  obtain ⟨m, b, low, hparts⟩ := exists_parts hpos
  have hgap := Nat.two_pow_pos b
  rw [hparts.interval_eq, hparts.units_eq, ← Nat.mul_assoc]
  have hlow := hparts.low_eq
  exact ⟨Nat.mul_lt_mul_of_pos_right (by omega) hgap, Nat.mul_lt_mul_of_pos_right (by omega) hgap⟩

theorem interval_pos (hpos : 0 < rank) : 0 < (interval rank).1 := by
  obtain ⟨m, b, low, hparts⟩ := exists_parts hpos
  have hlow := hparts.low_eq
  have hm := hparts.pos
  rw [hparts.interval_eq]
  exact Nat.mul_pos (by omega) (Nat.two_pow_pos b)

theorem quartersPerOne_pos : 0 < quartersPerOne := by decide +kernel

/-- a point of the grid lies in the interval, as it is tested -/
def Hits (rank : Nat) (grid : ℤ) (n : Nat) : Prop :=
  if rank % 2 = 0 then
    (interval rank).1 * 10 ^ (-grid).toNat ≤ n * (quartersPerOne * 10 ^ grid.toNat) ∧
      n * (quartersPerOne * 10 ^ grid.toNat) ≤ (interval rank).2 * 10 ^ (-grid).toNat
  else
    (interval rank).1 * 10 ^ (-grid).toNat < n * (quartersPerOne * 10 ^ grid.toNat) ∧
      n * (quartersPerOne * 10 ^ grid.toNat) < (interval rank).2 * 10 ^ (-grid).toNat

theorem hits_iff {n : Nat} :
    Hits rank grid n ↔ RoundsTo rank (n * 10 ^ grid * quartersPerOne) := by
  have hscale : 0 < 10 ^ (-grid).toNat := Nat.pow_pos (by decide)
  have hquotient : (n : ℚ) * 10 ^ grid * quartersPerOne =
      ((n * (quartersPerOne * 10 ^ grid.toNat) : Nat) : ℚ) / ((10 ^ (-grid).toNat : Nat) : ℚ) := by
    rw [ten_zpow]
    push_cast
    ring
  rw [hquotient, roundsTo_div_iff hscale, Hits]

/-- the double on the scale of the grid, and the points of the grid on both sides of it -/
theorem onGrid?_bounds (hpos : 0 < rank) (grid : ℤ) :
    let num := 4 * units rank * 10 ^ (-grid).toNat
    let den := quartersPerOne * 10 ^ grid.toNat
    (interval rank).1 * 10 ^ (-grid).toNat < num ∧
      num < (interval rank).2 * 10 ^ (-grid).toNat ∧
      num / den * den ≤ num ∧ num < (num / den + 1) * den := by
  intro num den
  have hscale : 0 < 10 ^ (-grid).toNat := Nat.pow_pos (by decide)
  have hden : 0 < den := Nat.mul_pos quartersPerOne_pos (Nat.pow_pos (by decide))
  obtain ⟨hlow, hhigh⟩ := interval_lt hpos
  refine ⟨Nat.mul_lt_mul_of_pos_right hlow hscale, Nat.mul_lt_mul_of_pos_right hhigh hscale,
    Nat.div_mul_le_self num den, ?_⟩
  rw [Nat.mul_comm]
  exact Nat.lt_mul_div_succ num hden

/-- the search on a grid, with the test spelled out once -/
theorem onGrid?_eq (tieUp : Bool) (hpos : 0 < rank) (grid : ℤ) [DecidablePred (Hits rank grid)] :
    onGrid? tieUp rank grid =
      let num := 4 * units rank * 10 ^ (-grid).toNat
      let den := quartersPerOne * 10 ^ grid.toNat
      if Hits rank grid (num / den) ∧ Hits rank grid (num / den + 1) then
        some (if tieUp then (2 * num + den) / (2 * den) else roundQuotient num den)
      else if Hits rank grid (num / den) then some (num / den)
      else if Hits rank grid (num / den + 1) then some (num / den + 1)
      else none := by
  obtain ⟨hlow, hhigh, hbelow, habove⟩ := onGrid?_bounds hpos grid
  unfold onGrid?
  cases hinterval : interval rank with
  | mk low high =>
  rw [hinterval] at hlow hhigh
  simp only [Nat.pow_eq, Hits, hinterval]
  generalize 4 * units rank * 10 ^ (-grid).toNat = num at hlow hhigh hbelow habove ⊢
  generalize quartersPerOne * 10 ^ grid.toNat = den at hbelow habove ⊢
  -- below the double only the lower end is tested, above it only the upper one
  by_cases hclosed : rank % 2 = 0
  · simp only [if_pos hclosed, and_iff_left (hbelow.trans hhigh.le),
      and_iff_right (hlow.trans habove).le]
  · simp only [if_neg hclosed, and_iff_left (hbelow.trans_lt hhigh),
      and_iff_right (hlow.trans habove)]

theorem hits_of_onGrid? {n : Nat} (hpos : 0 < rank) (h : onGrid? tieUp rank grid = some n) :
    Hits rank grid n := by
  classical
  rw [onGrid?_eq tieUp hpos] at h
  have hden : 0 < quartersPerOne * 10 ^ grid.toNat :=
    Nat.mul_pos quartersPerOne_pos (Nat.pow_pos (by decide))
  dsimp only at h
  split_ifs at h with hboth htie hbelow habove
  · obtain hn | hn := nearest_cases (4 * units rank * 10 ^ (-grid).toNat) hden
    · rw [← Option.some.inj h, hn]
      exact hboth.1
    · rw [← Option.some.inj h, hn]
      exact hboth.2
  · obtain hn | hn := roundQuotient_cases (4 * units rank * 10 ^ (-grid).toNat)
      (quartersPerOne * 10 ^ grid.toNat)
    · rw [← Option.some.inj h, hn]
      exact hboth.1
    · rw [← Option.some.inj h, hn]
      exact hboth.2
  · exact Option.some.inj h ▸ hbelow
  · exact Option.some.inj h ▸ habove

/-- a grid whose spacing is narrower than the interval has a point in it -/
theorem onGrid?_isSome (hpos : 0 < rank) (hwide : (interval rank).1 * 10 ^ (-grid).toNat +
    quartersPerOne * 10 ^ grid.toNat < (interval rank).2 * 10 ^ (-grid).toNat) :
    (onGrid? tieUp rank grid).isSome := by
  classical
  obtain ⟨hlow, hhigh, hbelow, habove⟩ := onGrid?_bounds hpos grid
  rw [onGrid?_eq tieUp hpos]
  rw [Nat.add_mul, Nat.one_mul] at habove
  dsimp only
  split_ifs with hboth htie hhit hhit'
  · rfl
  · rfl
  · rfl
  · rfl
  · -- both neighbours miss, so that the interval lies between them
    rw [Hits] at hhit hhit'
    rw [Nat.add_mul, Nat.one_mul] at hhit'
    split_ifs at hhit hhit' <;> omega

/-! ### seventeen digits -/

theorem magnitude_le {num den : Nat} (hnum : 0 < num) (hden : 0 < den) :
    (10 : ℚ) ^ (magnitude num den - 1) ≤ num / den := by
  have hden' : (0 : ℚ) < den := Nat.cast_pos.2 hden
  rw [le_div_iff₀ hden', magnitude]
  split_ifs with hle
  · -- as many digits as the whole part has
    have hquot := ten_pow_length_le (Nat.div_pos hle hden)
    have hpos := length_digitChars_pos (num / den)
    obtain ⟨k, hk⟩ := Nat.exists_eq_succ_of_ne_zero hpos.ne'
    rw [hk, Nat.succ_sub_one] at hquot
    rw [hk, Nat.cast_succ, add_sub_cancel_right, zpow_natCast]
    have hmul := (Nat.mul_le_mul_right den hquot).trans (Nat.div_mul_le_self num den)
    exact_mod_cast hmul
  · -- as many zeros as fit into the whole part of the reciprocal
    have hquot := lt_ten_pow_length ((den + num - 1) / num - 1)
    generalize (digitChars ((den + num - 1) / num - 1)).length = k at hquot ⊢
    have hceil : den ≤ num * 10 ^ k := by
      have hup := Nat.lt_mul_div_succ (den + num - 1) hnum
      have hmul : num * ((den + num - 1) / num) ≤ num * 10 ^ k :=
        Nat.mul_le_mul_left num (by omega)
      rw [Nat.mul_add] at hup
      omega
    rw [show (1 : ℤ) - k - 1 = -k by ring, zpow_neg, zpow_natCast, inv_mul_le_iff₀ (by positivity)]
    rw [mul_comm]
    exact_mod_cast hceil

/-- a grid with ten to the sixteenth of its steps below the double is narrow enough -/
theorem wide_of_le (hpos : 0 < rank)
    (h : 10 ^ 16 * (unitsPerOne * 10 ^ grid.toNat) ≤ units rank * 10 ^ (-grid).toNat) :
    (interval rank).1 * 10 ^ (-grid).toNat + quartersPerOne * 10 ^ grid.toNat <
      (interval rank).2 * 10 ^ (-grid).toNat := by
  obtain ⟨m, b, low, hparts⟩ := exists_parts hpos
  have hspacing : 0 < 2 ^ b * 10 ^ (-grid).toNat :=
    Nat.mul_pos (Nat.two_pow_pos b) (Nat.pow_pos (by decide))
  rw [hparts.units_eq, Nat.mul_assoc] at h
  rw [hparts.interval_eq, quartersPerOne, Nat.mul_assoc 4, Nat.mul_assoc low, Nat.mul_assoc (_ + 2)]
  generalize unitsPerOne * 10 ^ grid.toNat = step at h ⊢
  generalize 2 ^ b * 10 ^ (-grid).toNat = spacing at h hspacing ⊢
  have hupper : (4 * m + 2) * spacing = 4 * (m * spacing) + 2 * spacing := by ring
  have hmantissa : m * spacing ≤ (2 ^ 53 - 1) * spacing :=
    Nat.mul_le_mul_right spacing (Nat.le_sub_one_of_lt hparts.lt)
  obtain ⟨hlow, -⟩ | ⟨hlow, rfl, -⟩ := hparts.low_eq
  · have hlower : low * spacing + 2 * spacing = 4 * (m * spacing) := by
      rw [← Nat.add_mul, hlow, Nat.mul_assoc]
    omega
  · have hlower : low * spacing + spacing = 4 * (2 ^ 52 * spacing) := by
      rw [← Nat.succ_mul, Nat.succ_eq_add_one, hlow, Nat.mul_assoc]
    omega

theorem seventeen_digits (tieUp : Bool) (hpos : 0 < rank) :
    (onGrid? tieUp rank (magnitude (units rank) unitsPerOne - 17)).isSome := by
  have hunits : 0 < units rank := by
    obtain ⟨m, b, low, hparts⟩ := exists_parts hpos
    rw [hparts.units_eq]
    exact Nat.mul_pos hparts.pos (Nat.two_pow_pos b)
  have hone : 0 < unitsPerOne := by decide +kernel
  have hmagnitude := magnitude_le hunits hone
  generalize magnitude (units rank) unitsPerOne = top at hmagnitude ⊢
  refine onGrid?_isSome hpos (wide_of_le hpos ?_)
  have hone' : (0 : ℚ) < unitsPerOne := Nat.cast_pos.2 hone
  have hscale : (0 : ℚ) < 10 ^ (-(top - 17)).toNat := by positivity
  have hsplit : (10 : ℚ) ^ (top - 1) = 10 ^ 16 * 10 ^ (top - 17) := by
    rw [← zpow_natCast, ← zpow_add₀ (by norm_num)]
    congr 1
    push_cast
    ring
  rw [hsplit, ten_zpow, le_div_iff₀ hone', ← mul_div_assoc, div_mul_eq_mul_div,
    div_le_iff₀ hscale] at hmagnitude
  rw [← Nat.mul_assoc, Nat.mul_right_comm]
  exact_mod_cast hmagnitude

/-- the shortest decimal of a double rounds to it -/
theorem shortest_roundsTo (tieUp : Bool) (hpos : 0 < rank) :
    RoundsTo rank ((shortest tieUp rank).1 * 10 ^ (shortest tieUp rank).2 * quartersPerOne) := by
  have hlast := seventeen_digits tieUp hpos
  rw [shortest]
  dsimp only
  generalize magnitude (units rank) unitsPerOne = top at hlast ⊢
  cases hfound : (List.range 17).findSome? fun (n : Nat) =>
      (onGrid? tieUp rank (top - (n + 1))).map (·, top - ((n : ℤ) + 1)) with
  | none =>
    have hnone := List.findSome?_eq_none_iff.1 hfound 16 (by decide)
    rw [Option.map_eq_none_iff] at hnone
    rw [show top - 17 = top - (((16 : Nat) : ℤ) + 1) by norm_num, hnone] at hlast
    cases hlast
  | some result =>
    obtain ⟨n, -, hn⟩ := List.exists_of_findSome?_eq_some hfound
    obtain ⟨digits, hdigits, rfl⟩ := Option.map_eq_some_iff.1 hn
    exact hits_iff.1 (hits_of_onGrid? hpos hdigits)

theorem RoundsTo.pos {q : ℚ} (hpos : 0 < rank) (h : RoundsTo rank q) : 0 < q :=
  (Nat.cast_pos.2 (interval_pos hpos)).trans_le h.bounds.1

theorem shortest_pos (tieUp : Bool) (hpos : 0 < rank) : 0 < (shortest tieUp rank).1 := by
  have hvalue := (shortest_roundsTo tieUp hpos).pos hpos
  rw [Nat.pos_iff_ne_zero]
  intro hzero
  rw [hzero, Nat.cast_zero, zero_mul, zero_mul] at hvalue
  exact lt_irrefl _ hvalue

end Double

end LinearProgram
