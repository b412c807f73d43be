import LinearProgram.Proofs.Decimal.Rounding
import LinearProgram.Proofs.Double.Rank
import LinearProgram.Proofs.Double.Signs
import LinearProgram.Proofs.Double.Zeros

/-!
# Doubles in order

But for its sign a double is its rank, and that of an unpacked number can be read off its mantissa
and its exponent: the mantissas of one exponent follow on those of the exponent before, up to
infinity.  So doubles compare as their ranks do, with the sign in front.

* `Double.rank_pack`, `Double.isNegative_pack`   rank and sign of a number that was just packed;
* `Double.lt_iff_position`, `Double.le_iff_position`   comparisons, for all but NaN;
* `Double.units_mono`                            a greater rank is a greater number of units.
-/

namespace LinearProgram.Double
open Float.Model Float.Model.UnpackedFloat

/-! ### unpacked numbers -/

/-- a mantissa of 53 bits, or of fewer at the least exponent; any exponent above that -/
def Rounded : UnpackedFloat → Prop
  | .finite _ m e _ => m < 2 ^ 53 ∧ (2 ^ 52 ≤ m ∧ -1074 ≤ e ∨ e = -1074)
  | _ => True

theorem Canonical.rounded {u : UnpackedFloat} (h : Canonical u) : Rounded u := by
  cases u with
  | finite s m e hm => exact ⟨h.1, h.2.2⟩
  | _ => trivial

/-- the rank of the word that the number is packed into -/
def level : UnpackedFloat → Nat
  | .notANumber => infinityRank + 2 ^ 51
  | .infinity _ => infinityRank
  | .zero _ => 0
  | .finite _ m e _ => min infinityRank (m + (e + 1074).toNat * 2 ^ 52)

/-- the sign of the word that the number is packed into -/
def minus : UnpackedFloat → Bool
  | .notANumber => false
  | .infinity s => s == .negative
  | .zero s => s == .negative
  | .finite s _ _ _ => s == .negative

/-! ### words -/

theorem toNat_packComponents (s : Sign) (e : BitVec 11) (m : BitVec 52) :
    (packComponents Format.binary64 s e m).toNat =
      (if s == .negative then 2 ^ 63 else 0) + e.toNat * 2 ^ 52 + m.toNat := by
  have hm : m.toNat < 2 ^ 52 := m.isLt
  have he : e.toNat < 2 ^ 11 := e.isLt
  have hword : (packComponents Format.binary64 s e m).toNat =
      (s.toBitVec.toNat * 2 ^ 11 + e.toNat) * 2 ^ 52 + m.toNat := by
    show (s.toBitVec ++ e ++ m).toNat = _
    rw [BitVec.toNat_append, ← Nat.shiftLeft_add_eq_or_of_lt hm, BitVec.toNat_append,
      ← Nat.shiftLeft_add_eq_or_of_lt he, Nat.shiftLeft_eq, Nat.shiftLeft_eq]
  rw [hword]
  cases s with
  | negative =>
    show (1 * 2 ^ 11 + e.toNat) * 2 ^ 52 + m.toNat = 2 ^ 63 + e.toNat * 2 ^ 52 + m.toNat
    omega
  | positive =>
    show (0 * 2 ^ 11 + e.toNat) * 2 ^ 52 + m.toNat = 0 + e.toNat * 2 ^ 52 + m.toNat
    omega

theorem toNat_pack {u : UnpackedFloat} (h : Rounded u) :
    (pack Format.binary64 u).toNat = (if minus u then 2 ^ 63 else 0) + level u := by
  cases u with
  | notANumber => rfl
  | infinity s => cases s <;> rfl
  | zero s => cases s <;> rfl
  | finite s m e hm =>
    obtain ⟨hlt, hlow⟩ := h
    have hne : m ≠ 0 := Nat.ne_of_gt hm
    have hlog : m.log2 < 53 := (Nat.log2_lt hne).2 hlt
    have hlevel : level (.finite s m e hm) =
        min infinityRank (m + (e + 1074).toNat * 2 ^ 52) := rfl
    have hminus : minus (.finite s m e hm) = (s == .negative) := rfl
    rw [hlevel, infinityRank_eq, hminus]
    unfold UnpackedFloat.pack
    dsimp only
    rw [exponentBias_eq, mantissaBits_eq]
    -- the biased exponent counts from one, or is one for all numbers below the least normal one
    have hbias : (e + ((1023 : Nat) : Int) + ((52 : Nat) : Int)).toNat = (e + 1074).toNat + 1 := by
      omega
    rw [hbias]
    generalize (e + 1074).toNat = b at hbias ⊢
    by_cases htop : 2 ^ 11 ≤ b + 1 + 1
    · rw [if_pos htop, packedInfinity, toNat_packComponents]
      have hexponent : (-1#11 : BitVec 11).toNat = 2047 := rfl
      have hmantissa : (0 : BitVec 52).toNat = 0 := rfl
      rw [hexponent, hmantissa]
      omega
    · rw [if_neg htop]
      by_cases hnormal : m.log2 + 1 = 53
      · have hge : 2 ^ 52 ≤ m := (Nat.le_log2 hne).1 (by omega)
        rw [if_pos hnormal, toNat_packComponents, BitVec.toNat_ofNat, BitVec.toNat_ofNat]
        omega
      · have hsmall : m < 2 ^ 52 := (Nat.log2_lt hne).1 (by omega)
        rw [if_neg hnormal, toNat_packComponents, BitVec.toNat_ofNat, BitVec.toNat_ofNat]
        omega

theorem level_lt (u : UnpackedFloat) : level u < 2 ^ 63 := by
  have hnan : infinityRank + 2 ^ 51 < 2 ^ 63 := by decide
  have htop : infinityRank < 2 ^ 63 := Nat.lt_of_le_of_lt (Nat.le_add_right _ _) hnan
  cases u with
  | notANumber => exact hnan
  | infinity s => exact htop
  | zero s => exact Nat.two_pow_pos 63
  | finite s m e hm => exact Nat.lt_of_le_of_lt (Nat.min_le_left _ _) htop

theorem rank_pack {u : UnpackedFloat} (h : Rounded u) :
    rank (Float.ofModel (Float.Model.pack u)) = level u := by
  have hlt := level_lt u
  show (pack Format.binary64 u).toNat % 2 ^ 63 = _
  rw [toNat_pack h]
  split_ifs <;> omega

theorem isNegative_pack {u : UnpackedFloat} (h : Rounded u) :
    isNegative (Float.ofModel (Float.Model.pack u)) = minus u := by
  have hlt := level_lt u
  show decide (2 ^ 63 ≤ (pack Format.binary64 u).toNat) = _
  rw [toNat_pack h]
  cases minus u with
  | true =>
    apply decide_eq_true
    rw [if_pos rfl]
    omega
  | false =>
    apply decide_eq_false
    rw [if_neg Bool.false_ne_true]
    omega

theorem rank_eq_level (x : Float) : rank x = level (unpacked x) := by
  rw [← rank_pack (canonical_unpacked x).rounded, pack_unpacked]

theorem isNegative_eq_minus (x : Float) : isNegative x = minus (unpacked x) := by
  rw [← isNegative_pack (canonical_unpacked x).rounded, pack_unpacked]

/-! ### comparisons -/

/-- the rank with the sign in front: the place of a double among all of them -/
def position (x : Float) : Int := if isNegative x then -rank x else rank x

/-- the place of an unpacked number -/
def signedLevel (u : UnpackedFloat) : Int := if minus u then -level u else level u

theorem position_eq (x : Float) : position x = signedLevel (unpacked x) := by
  rw [position, signedLevel, rank_eq_level, isNegative_eq_minus]

theorem ite_negative (s : Sign) (n : Nat) :
    (if s == .negative then -(n : Int) else n) = s.apply n := by
  cases s <;> rfl

theorem signedLevel_infinity (s : Sign) : signedLevel (.infinity s) = s.apply infinityRank :=
  ite_negative s infinityRank

theorem signedLevel_zero (s : Sign) : signedLevel (.zero s) = 0 := by
  cases s <;> rfl

theorem signedLevel_finite {s : Sign} {m : Nat} {e : Int} {hm : 0 < m} :
    signedLevel (.finite s m e hm) = s.apply (level (.finite s m e hm)) :=
  ite_negative s (level (.finite s m e hm))

theorem neg_ne_notANumber {u : UnpackedFloat} (hnan : u ≠ .notANumber) : u.neg ≠ .notANumber := by
  cases u with
  | notANumber => exact absurd rfl hnan
  | _ => nofun

theorem signedLevel_neg {u : UnpackedFloat} (hnan : u ≠ .notANumber) :
    signedLevel u.neg = -signedLevel u := by
  cases u with
  | notANumber => exact absurd rfl hnan
  | infinity s =>
    show signedLevel (.infinity (-s)) = _
    rw [signedLevel_infinity, signedLevel_infinity]
    cases s
    · exact (Int.neg_neg _).symm
    · rfl
  | zero s =>
    show signedLevel (.zero (-s)) = _
    rw [signedLevel_zero, signedLevel_zero, Int.neg_zero]
  | finite s m e hm =>
    show signedLevel (.finite (-s) m e hm) = _
    rw [signedLevel_finite, signedLevel_finite]
    cases s
    · exact (Int.neg_neg _).symm
    · rfl

theorem level_pos {s : Sign} {m : Nat} {e : Int} (hm : 0 < m) : 0 < level (.finite s m e hm) :=
  Nat.lt_min.2 ⟨by decide, Nat.lt_of_lt_of_le hm (Nat.le_add_right _ _)⟩

theorem level_eq {s : Sign} {m : Nat} {e : Int} {hm : 0 < m} (h : Canonical (.finite s m e hm)) :
    level (.finite s m e hm) = m + (e + 1074).toNat * 2 ^ 52 := by
  obtain ⟨hlt, htop, -⟩ := h
  apply Nat.min_eq_right
  rw [infinityRank_eq]
  omega

theorem level_lt_infinityRank {s : Sign} {m : Nat} {e : Int} {hm : 0 < m}
    (h : Canonical (.finite s m e hm)) : level (.finite s m e hm) < infinityRank := by
  obtain ⟨hlt, htop, -⟩ := id h
  rw [level_eq h, infinityRank_eq]
  omega

/-- the exponents come first, then the mantissas -/
theorem compare_magnitude {m n : Nat} {e f : Int} {hm : 0 < m} {hn : 0 < n} {s t : Sign}
    (hu : Canonical (.finite s m e hm)) (hv : Canonical (.finite t n f hn)) :
    (compare e f).then (compare m n) =
      compare (level (.finite s m e hm) : Int) (level (.finite t n f hn)) := by
  rw [level_eq hu, level_eq hv]
  obtain ⟨hmlt, -, helow⟩ := hu
  obtain ⟨hnlt, -, hflow⟩ := hv
  rcases lt_trichotomy e f with hlt | rfl | hgt
  · rw [compare_lt_iff_lt.2 hlt, Ordering.lt_then, eq_comm, compare_lt_iff_lt]
    omega
  · rw [compare_eq_iff_eq.2 rfl, Ordering.eq_then]
    rcases lt_trichotomy m n with hlt | rfl | hgt
    · rw [compare_lt_iff_lt.2 hlt, eq_comm, compare_lt_iff_lt]
      omega
    · rw [compare_eq_iff_eq.2 rfl, compare_eq_iff_eq.2 rfl]
    · rw [compare_gt_iff_gt.2 hgt, eq_comm, compare_gt_iff_gt]
      omega
  · rw [compare_gt_iff_gt.2 hgt, Ordering.gt_then, eq_comm, compare_gt_iff_gt]
    omega

theorem compare_neg_neg (a b : Int) : compare (-a) (-b) = (compare a b).swap := by
  rw [← Std.OrientedCmp.eq_swap]
  rcases lt_trichotomy b a with hlt | rfl | hgt
  · rw [compare_lt_iff_lt.2 hlt, compare_lt_iff_lt]
    omega
  · rw [compare_eq_iff_eq.2 rfl, compare_eq_iff_eq.2 rfl]
  · rw [compare_gt_iff_gt.2 hgt, compare_gt_iff_gt]
    omega

theorem some_lt {a b : Int} (h : a < b) : some Ordering.lt = some (compare a b) :=
  congrArg some (compare_lt_iff_lt.2 h).symm

theorem some_gt {a b : Int} (h : b < a) : some Ordering.gt = some (compare a b) :=
  congrArg some (compare_gt_iff_gt.2 h).symm

theorem some_eq {a b : Int} (h : a = b) : some Ordering.eq = some (compare a b) :=
  congrArg some (compare_eq_iff_eq.2 h).symm

theorem compare_infinity (s : Sign) {v : UnpackedFloat} (hv : Canonical v)
    (hnan : v ≠ .notANumber) :
    (UnpackedFloat.infinity s).compare v =
      some (compare (signedLevel (.infinity s)) (signedLevel v)) := by
  have hinfinity : 0 < infinityRank := by decide
  rw [signedLevel_infinity]
  cases v with
  | notANumber => exact absurd rfl hnan
  | infinity t =>
    rw [signedLevel_infinity]
    cases s <;> cases t
    · exact some_eq rfl
    · exact some_lt (by simp only [Sign.apply]; omega)
    · exact some_gt (by simp only [Sign.apply]; omega)
    · exact some_eq rfl
  | zero t =>
    rw [signedLevel_zero]
    cases s
    · exact some_lt (by simp only [Sign.apply]; omega)
    · exact some_gt (by simp only [Sign.apply]; omega)
  | finite t n f hn =>
    have hlt := level_lt_infinityRank hv
    rw [signedLevel_finite]
    cases s <;> cases t
    · exact some_lt (by simp only [Sign.apply]; omega)
    · exact some_lt (by simp only [Sign.apply]; omega)
    · exact some_gt (by simp only [Sign.apply]; omega)
    · exact some_gt (by simp only [Sign.apply]; omega)

theorem compare_finite {s : Sign} {m : Nat} {e : Int} {hm : 0 < m} {v : UnpackedFloat}
    (hu : Canonical (.finite s m e hm)) (hv : Canonical v) (hnan : v ≠ .notANumber)
    (hinfinite : ∀ t, v ≠ .infinity t) :
    (UnpackedFloat.finite s m e hm).compare v =
      some (compare (signedLevel (.finite s m e hm)) (signedLevel v)) := by
  have hpos := level_pos (s := s) (e := e) hm
  rw [signedLevel_finite]
  cases v with
  | notANumber => exact absurd rfl hnan
  | infinity t => exact absurd rfl (hinfinite t)
  | zero t =>
    rw [signedLevel_zero]
    cases s
    · exact some_lt (by simp only [Sign.apply]; omega)
    · exact some_gt (by simp only [Sign.apply]; omega)
  | finite t n f hn =>
    have hpos' := level_pos (s := t) (e := f) hn
    have hsame := compare_magnitude hu hv
    rw [signedLevel_finite]
    cases s <;> cases t
    · show some ((compare e f).then (compare m n)).swap = some (compare (-_) (-_))
      rw [hsame, compare_neg_neg]
    · exact some_lt (by simp only [Sign.apply]; omega)
    · exact some_gt (by simp only [Sign.apply]; omega)
    · exact congrArg some hsame

/-- negation turns a comparison around, on both sides -/
theorem compare_of_neg {u v : UnpackedFloat} (hnan : u ≠ .notANumber) (hnan' : v ≠ .notANumber)
    (h : v.neg.compare u.neg = some (compare (signedLevel v.neg) (signedLevel u.neg))) :
    u.compare v = some (compare (signedLevel u) (signedLevel v)) := by
  rw [compare_neg, signedLevel_neg hnan, signedLevel_neg hnan', compare_neg_neg,
    ← Std.OrientedCmp.eq_swap] at h
  exact h

/-- all but NaN compare as their places do -/
theorem compare_eq {u v : UnpackedFloat} (hu : Canonical u) (hv : Canonical v)
    (hnan : u ≠ .notANumber) (hnan' : v ≠ .notANumber) :
    u.compare v = some (compare (signedLevel u) (signedLevel v)) := by
  have hneg := neg_ne_notANumber hnan
  cases u with
  | notANumber => exact absurd rfl hnan
  | infinity s => exact compare_infinity s hv hnan'
  | zero s =>
    cases v with
    | notANumber => exact absurd rfl hnan'
    | infinity t => exact compare_of_neg hnan hnan' (compare_infinity (-t) trivial hneg)
    | zero t => rw [signedLevel_zero, signedLevel_zero]; exact some_eq rfl
    | finite t n f hn =>
      exact compare_of_neg hnan hnan' (compare_finite (canonical_neg hv) trivial hneg nofun)
  | finite s m e hm =>
    cases v with
    | infinity t =>
      exact compare_of_neg hnan hnan' (compare_infinity (-t) (canonical_neg hu) hneg)
    | _ => exact compare_finite hu hv hnan' nofun

section
variable {x y : Float}

theorem unpacked_ne_notANumber (hx : rank x ≤ infinityRank) : unpacked x ≠ .notANumber := by
  intro hnan
  have hrank : rank x = infinityRank + 2 ^ 51 := by
    rw [rank_eq_level, hnan]
    rfl
  omega

theorem lt_iff_position (hx : rank x ≤ infinityRank) (hy : rank y ≤ infinityRank) :
    x < y ↔ position x < position y := by
  rw [lt_iff, compare_eq (canonical_unpacked x) (canonical_unpacked y) (unpacked_ne_notANumber hx)
    (unpacked_ne_notANumber hy), Option.some_inj, compare_lt_iff_lt, position_eq, position_eq]

theorem le_iff_position (hx : rank x ≤ infinityRank) (hy : rank y ≤ infinityRank) :
    x ≤ y ↔ position x ≤ position y := by
  rw [le_iff, compare_eq (canonical_unpacked x) (canonical_unpacked y) (unpacked_ne_notANumber hx)
    (unpacked_ne_notANumber hy), Option.any_some, Std.isLE_compare, position_eq, position_eq]

theorem rank_lt_of_isFinite (hx : x.isFinite) : rank x < infinityRank := by
  rw [← isFinite_eq] at hx
  exact of_decide_eq_true hx

theorem rank_pos_of_not_zero (hx : x.isFinite) (h0 : ¬ x == 0) : 0 < rank x := by
  obtain hs | ⟨s, m, e, hm, hs⟩ := (isFinite_iff x).1 hx
  · exact absurd ((beq_zero_iff x).2 hs) h0
  · rw [rank_eq_level, hs]
    exact level_pos hm

/-! ### signs -/

theorem position_neg (hx : rank x ≤ infinityRank) : position (-x) = -position x := by
  rw [position_eq, position_eq, unpacked_neg, signedLevel_neg (unpacked_ne_notANumber hx)]

theorem abs_eq (x : Float) : x.abs = Float.ofModel (Float.Model.pack (unpacked x).abs) := rfl

theorem rounded_abs {u : UnpackedFloat} (h : Rounded u) : Rounded u.abs := by
  cases u with
  | finite s m e hm => exact h
  | _ => trivial

theorem rank_abs (x : Float) : rank x.abs = rank x := by
  rw [abs_eq, rank_pack (rounded_abs (canonical_unpacked x).rounded), rank_eq_level]
  cases unpacked x <;> rfl

theorem isNegative_abs (x : Float) : isNegative x.abs = false := by
  rw [abs_eq, isNegative_pack (rounded_abs (canonical_unpacked x).rounded)]
  cases unpacked x <;> rfl

end

/-! ### units -/

theorem units_eq {x : Float} {s : Sign} {m : Nat} {e : Int} {hm : 0 < m}
    (hx : unpacked x = .finite s m e hm) : units (rank x) = m * 2 ^ (e + 1074).toNat := by
  have hcanonical := canonical_unpacked x
  rw [hx] at hcanonical
  have hbinade : binade (m + (e + 1074).toNat * 2 ^ 52) =
      (m + (e + 1074).toNat * 2 ^ 52) / 2 ^ 52 - 1 := rfl
  rw [rank_eq_level, hx, level_eq hcanonical, units_eq_ite, hbinade]
  obtain ⟨hlt, -, hlow⟩ := hcanonical
  have hlow : 2 ^ 52 ≤ m ∨ (e + 1074).toNat = 0 := by omega
  generalize (e + 1074).toNat = b at hlow ⊢
  by_cases hsmall : m < 2 ^ 52
  · obtain rfl : b = 0 := by omega
    rw [if_pos (by omega), Nat.zero_mul, Nat.pow_zero, Nat.add_zero, Nat.mul_one]
  · have hdiv : (m + b * 2 ^ 52) / 2 ^ 52 - 1 = b := by omega
    have hmod : 2 ^ 52 + (m + b * 2 ^ 52) % 2 ^ 52 = m := by omega
    rw [if_neg (by omega), hdiv, hmod, Nat.shiftLeft_eq]

theorem units_mono {r r' : Nat} (h : r ≤ r') : units r ≤ units r' := by
  rcases Nat.eq_zero_or_pos r with rfl | hpos
  · exact Nat.zero_le _
  · obtain ⟨m, b, hrank, -, hlt, hge, -, hunits, -⟩ := exists_mantissa hpos
    obtain ⟨m', b', hrank', -, hlt', hge', -, hunits', -⟩ := exists_mantissa (hpos.trans_le h)
    rw [hunits, hunits']
    rcases Nat.lt_trichotomy b b' with hb | rfl | hb
    · -- a mantissa of the binade above is worth more than any of this one
      have hpow : 2 * 2 ^ b ≤ 2 ^ b' := by
        rw [← Nat.pow_succ']
        exact Nat.pow_le_pow_right (by decide) hb
      calc m * 2 ^ b ≤ 2 ^ 53 * 2 ^ b := Nat.mul_le_mul_right _ hlt.le
        _ = 2 ^ 52 * (2 * 2 ^ b) := by rw [← Nat.mul_assoc, ← Nat.pow_succ]
        _ ≤ 2 ^ 52 * 2 ^ b' := Nat.mul_le_mul_left _ hpow
        _ ≤ m' * 2 ^ b' := Nat.mul_le_mul_right _ (hge' (by omega))
    · exact Nat.mul_le_mul_right _ (by omega)
    · have hge := hge (by omega)
      omega

theorem units_zero_iff (r : Nat) : units r = 0 ↔ r = 0 := by
  rcases Nat.eq_zero_or_pos r with rfl | hpos
  · exact ⟨fun _ => rfl, fun _ => rfl⟩
  · obtain ⟨m, b, -, hm, -, -, -, hunits, -⟩ := exists_mantissa hpos
    have hunits' : 0 < units r := by
      rw [hunits]
      exact Nat.mul_pos hm (Nat.two_pow_pos b)
    omega

end LinearProgram.Double
