import LinearProgram.Proofs.Double.Packing
import LinearProgram.Proofs.Scalar.ExactUnits

/-!
# Doubles keep zeros and ones

The laws of `ExactUnits` for doubles.  An operation that gives a zero, or one of its operands, is
exact: its result is canonical and survives packing.  The one law that involves rounding is that
a product with one is the other factor.

* `Double.unpacked_mul_one`   multiplying by one changes nothing;
* `ExactUnits Float`          zeros and ones survive a pivot on finite doubles.
-/

namespace LinearProgram

namespace Double
open Float.Model Float.Model.UnpackedFloat

def unpacked (x : Float) : UnpackedFloat := x.toModel.unpack

theorem canonical_unpacked (x : Float) : Canonical (unpacked x) := canonical_unpack _

/-! ### comparisons -/

theorem lt_iff (x y : Float) : x < y ↔ (unpacked x).compare (unpacked y) = some .lt := by
  show decide (_ : Prop) = true ↔ _
  rw [decide_eq_true_iff]
  show UnpackedFloat.lt _ _ = true ↔ _
  unfold UnpackedFloat.lt
  rw [beq_iff_eq]
  rfl

theorem le_iff (x y : Float) :
    x ≤ y ↔ ((unpacked x).compare (unpacked y)).any (·.isLE) := by
  show decide (_ : Prop) = true ↔ _
  rw [decide_eq_true_iff]
  rfl

theorem beq_iff (x y : Float) : x == y ↔ (unpacked x).compare (unpacked y) = some .eq := by
  show UnpackedFloat.beq _ _ = true ↔ _
  unfold UnpackedFloat.beq
  rw [beq_iff_eq]
  rfl

theorem beq_zero_iff (x : Float) : x == 0 ↔ ∃ s, unpacked x = .zero s := by
  rw [beq_iff]
  have h0 : unpacked 0 = .zero .positive := rfl
  rw [h0]
  cases unpacked x with
  | notANumber => exact ⟨nofun, nofun⟩
  | infinity s => cases s <;> exact ⟨nofun, nofun⟩
  | zero s => exact ⟨fun _ => ⟨s, rfl⟩, fun _ => rfl⟩
  | finite s m e hm => cases s <;> exact ⟨nofun, nofun⟩

theorem beq_one_iff (x : Float) :
    x == 1 ↔ unpacked x = .finite .positive (2 ^ 52) (-52) (by decide) := by
  rw [beq_iff]
  have h1 : unpacked 1 = .finite .positive (2 ^ 52) (-52) (by decide) := rfl
  rw [h1]
  cases unpacked x with
  | notANumber => exact ⟨nofun, nofun⟩
  | infinity s => cases s <;> exact ⟨nofun, nofun⟩
  | zero s => exact ⟨nofun, nofun⟩
  | finite s m e hm =>
    cases s with
    | negative => exact ⟨nofun, nofun⟩
    | positive =>
      show some ((compare e (-52)).then (compare m (2 ^ 52))) = some Ordering.eq ↔ _
      rw [Option.some_inj, Ordering.then_eq_eq, Std.compare_eq_iff_eq, Std.compare_eq_iff_eq]
      refine ⟨?_, ?_⟩
      · rintro ⟨rfl, rfl⟩
        rfl
      · intro h
        cases h
        exact ⟨rfl, rfl⟩

theorem isFinite_iff (x : Float) : x.isFinite ↔
    (∃ s, unpacked x = .zero s) ∨ ∃ s m e hm, unpacked x = .finite s m e hm := by
  show (unpacked x).isFinite = true ↔ _
  cases unpacked x with
  | notANumber => exact ⟨nofun, by rintro (⟨_, h⟩ | ⟨_, _, _, _, h⟩) <;> exact nomatch h⟩
  | infinity s => exact ⟨nofun, by rintro (⟨_, h⟩ | ⟨_, _, _, _, h⟩) <;> exact nomatch h⟩
  | zero s => exact ⟨fun _ => Or.inl ⟨s, rfl⟩, fun _ => rfl⟩
  | finite s m e hm => exact ⟨fun _ => Or.inr ⟨s, m, e, hm, rfl⟩, fun _ => rfl⟩

theorem unpacked_of_nonneg {x : Float} (h : 0 ≤ x) :
    (∃ s, unpacked x = .zero s) ∨ unpacked x = .infinity .positive ∨
      ∃ m e hm, unpacked x = .finite .positive m e hm := by
  have h := (le_iff 0 x).1 h
  have h0 : unpacked 0 = .zero .positive := rfl
  rw [h0] at h
  cases hx : unpacked x with
  | notANumber => rw [hx] at h; exact nomatch h
  | zero s => exact Or.inl ⟨s, rfl⟩
  | infinity s =>
    cases s with
    | positive => exact Or.inr (Or.inl rfl)
    | negative => rw [hx] at h; exact nomatch h
  | finite s m e hm =>
    cases s with
    | positive => exact Or.inr (Or.inr ⟨m, e, hm, rfl⟩)
    | negative => rw [hx] at h; exact nomatch h

/-! ### exact operations -/

theorem canonical_neg {u : UnpackedFloat} (h : Canonical u) : Canonical u.neg := by
  cases u with
  | finite s m e hm => exact h
  | _ => trivial

theorem unpacked_neg (x : Float) : unpacked (-x) = (unpacked x).neg :=
  unpack_pack (canonical_neg (canonical_unpacked x))

/-- an operation with a canonical result is exact -/
theorem unpacked_of_canonical {x : Float} {u : UnpackedFloat}
    (hx : x.toModel = Float.Model.pack u) (h : Canonical u) : unpacked x = u := by
  rw [unpacked, hx]
  exact unpack_pack h

theorem unpacked_mul_zero {x y : Float} (hx : x.isFinite) (hy : y == 0) :
    ∃ s, unpacked (x * y) = .zero s := by
  obtain ⟨t, ht⟩ := (beq_zero_iff y).1 hy
  obtain ⟨s, hs⟩ | ⟨s, m, e, hm, hs⟩ := (isFinite_iff x).1 hx
  all_goals
    refine ⟨s * t, unpacked_of_canonical (?_ : _ = Float.Model.pack (.zero (s * t))) trivial⟩
    show Float.Model.pack (mul Format.binary64 (unpacked x) (unpacked y)) = _
    rw [hs, ht]
    rfl

theorem unpacked_zero_div {x y : Float} (hx : x == 0) (hy : y.isFinite) (h0 : ¬ y == 0) :
    ∃ s, unpacked (x / y) = .zero s := by
  obtain ⟨s, hs⟩ := (beq_zero_iff x).1 hx
  obtain ht | ⟨t, m, e, hm, ht⟩ := (isFinite_iff y).1 hy
  · exact absurd ((beq_zero_iff y).2 ht) h0
  · refine ⟨s / t, unpacked_of_canonical (?_ : _ = Float.Model.pack (.zero (s / t))) trivial⟩
    show Float.Model.pack (div Format.binary64 (unpacked x) (unpacked y)) = _
    rw [hs, ht]
    rfl

/-- taking off a zero leaves a finite number as it is, but for the sign of a zero -/
theorem unpacked_sub_zero {x z : Float} {t : Sign} (hz : unpacked z = .zero t) :
    (∀ s, unpacked x = .zero s → ∃ s', unpacked (x - z) = .zero s') ∧
      ∀ s m e hm, unpacked x = .finite s m e hm → unpacked (x - z) = .finite s m e hm := by
  refine ⟨?_, ?_⟩
  · intro s hs
    have hsub : sub Format.binary64 (unpacked x) (unpacked z) =
        if s == -t then .zero s else .zero .positive := by rw [hs, hz]; rfl
    by_cases h : s == -t
    · rw [if_pos h] at hsub
      exact ⟨_, unpacked_of_canonical (congrArg Float.Model.pack hsub) trivial⟩
    · rw [if_neg h] at hsub
      exact ⟨_, unpacked_of_canonical (congrArg Float.Model.pack hsub) trivial⟩
  · intro s m e hm hs
    have hsub : sub Format.binary64 (unpacked x) (unpacked z) = unpacked x := by
      rw [hs, hz]; rfl
    rw [← hs]
    exact unpacked_of_canonical (congrArg Float.Model.pack hsub) (canonical_unpacked x)

/-! ### the product with one -/

theorem shiftRight_mul_two_pow (m k : Nat) :
    (⟨m * 2 ^ k, false, false⟩ : ExtendedMantissa) >>> k = ⟨m, false, false⟩ := by
  induction k generalizing m with
  | zero => rw [Nat.pow_zero, Nat.mul_one]; rfl
  | succ k ih =>
    have h := ih (m * 2)
    rw [Nat.mul_assoc, ← Nat.pow_succ'] at h
    show ExtendedMantissa.shiftRightOne
      ((⟨m * 2 ^ (k + 1), false, false⟩ : ExtendedMantissa) >>> k) = _
    rw [h]
    simp [ExtendedMantissa.shiftRightOne]

theorem targetExponent_eq {m : Nat} {e : Int} (hm : 0 < m) (s : Sign)
    (h : Canonical (.finite s m e hm)) :
    Format.binary64.targetExponent (totalExponent m e) = e := by
  obtain ⟨hlt, -, hlow⟩ := h
  have hne : m ≠ 0 := Nat.ne_of_gt hm
  have hlog : m.log2 < 53 := (Nat.log2_lt hne).2 hlt
  show max (((m.log2 : Int) + 1 + e) - ((53 : Nat) : Int)) (-1074) = e
  rcases hlow with ⟨hge, hlow⟩ | hlow
  · have hlog' : 52 ≤ m.log2 := (Nat.le_log2 hne).2 hge
    omega
  · omega

theorem targetExponent_binary64 (e : Int) :
    Format.binary64.targetExponent e = max (e - 53) (-1074) := rfl

/-- after rounding there is one more shift, where the mantissa has grown to the next power of two -/
theorem shiftToTargetExponent_rounded {r : Nat} {e : Int} (hle : r ≤ 2 ^ 53)
    (hlow : 2 ^ 52 ≤ r ∧ -1074 ≤ e ∨ e = -1074) :
    shiftToTargetExponent Format.binary64 r e .exact =
      if r = 2 ^ 53 then (⟨2 ^ 52, false, false⟩, e + 1) else (⟨r, false, false⟩, e) := by
  unfold shiftToTargetExponent shiftToExponent
  rw [targetExponent_binary64]
  dsimp only
  by_cases htop : r = 2 ^ 53
  · subst htop
    have hlog : Nat.log2 (2 ^ 53) = 53 := Nat.log2_two_pow
    have hshift : (max (totalExponent (2 ^ 53) e - 53) (-1074) - e).toNat = 1 := by
      rw [totalExponent, hlog]
      omega
    rw [if_pos rfl, hshift]
    rfl
  · have hlog : r.log2 ≤ 52 := by
      rcases Nat.eq_zero_or_pos r with rfl | hpos
      · decide
      · exact Nat.lt_succ_iff.1 ((Nat.log2_lt hpos.ne').2 (by omega))
    have hshift : (max (totalExponent r e - 53) (-1074) - e).toNat = 0 := by
      rw [totalExponent]
      omega
    rw [if_neg htop, hshift]
    exact Prod.ext rfl (Int.add_zero e)

/-- rounding is exact on a canonical number written with 52 more bits -/
theorem roundWithAccuracy_exact {m : Nat} {e : Int} (hm : 0 < m) (s : Sign)
    (h : Canonical (.finite s m e hm)) :
    roundWithAccuracy Format.binary64 s (m * 2 ^ 52) (e + -52) .exact = .finite s m e hm := by
  have htotal : totalExponent (m * 2 ^ 52) (e + -52) = totalExponent m e := by
    have hlog : (m * 2 ^ 52).log2 = m.log2 + 52 := by
      have hne : m ≠ 0 := Nat.ne_of_gt hm
      rw [Nat.log2_eq_iff (by omega), Nat.pow_add, Nat.add_right_comm, Nat.pow_add]
      exact ⟨Nat.mul_le_mul_right _ (Nat.log2_self_le hne),
        Nat.mul_lt_mul_of_pos_right Nat.lt_log2_self (Nat.two_pow_pos 52)⟩
    show ((m * 2 ^ 52).log2 : Int) + 1 + (e + -52) = (m.log2 : Int) + 1 + e
    omega
  have hfirst : shiftToTargetExponent Format.binary64 (m * 2 ^ 52) (e + -52) .exact =
      (⟨m, false, false⟩, e) := by
    unfold shiftToTargetExponent shiftToExponent
    rw [htotal, targetExponent_eq hm s h]
    dsimp only
    rw [show (e - (e + -52)).toNat = 52 by omega]
    exact Prod.ext (shiftRight_mul_two_pow m 52) (by show e + -52 + ((52 : Nat) : Int) = e; omega)
  have hsecond : shiftToTargetExponent Format.binary64 m e .exact = (⟨m, false, false⟩, e) := by
    obtain ⟨hlt, -, hlow⟩ := h
    rw [shiftToTargetExponent_rounded hlt.le hlow, if_neg hlt.ne]
  unfold roundWithAccuracy
  rw [hfirst]
  show (match shiftToTargetExponent Format.binary64 m e .exact with
    | (f, e') => if h : f.mantissa = 0 then UnpackedFloat.zero s
      else .finite s f.mantissa e' (Nat.pos_of_ne_zero h)) = _
  rw [hsecond]
  exact dif_neg (Nat.ne_of_gt hm)

theorem unpacked_mul_one {x y : Float} (hx : x.isFinite) (hy : y == 1) :
    unpacked (x * y) = unpacked x := by
  have hy := (beq_one_iff y).1 hy
  refine unpacked_of_canonical (?_ : _ = Float.Model.pack (unpacked x)) (canonical_unpacked x)
  show Float.Model.pack (mul Format.binary64 (unpacked x) (unpacked y)) = _
  rw [hy]
  congr 1
  have hcanon := canonical_unpacked x
  obtain ⟨s, hs⟩ | ⟨s, m, e, hm, hs⟩ := (isFinite_iff x).1 hx
  · rw [hs]; cases s <;> rfl
  · rw [hs] at hcanon ⊢
    have hsign : s * .positive = s := by cases s <;> rfl
    show roundWithAccuracy Format.binary64 (s * .positive) (m * 2 ^ 52) (e + -52) .exact = _
    rw [hsign, roundWithAccuracy_exact hm s hcanon]

/-- a finite number cancels against one that unpacks to the same -/
theorem unpacked_sub_self {x y : Float} (hx : x.isFinite) (h : unpacked y = unpacked x) :
    ∃ s, unpacked (x - y) = .zero s := by
  obtain ⟨s, hs⟩ | ⟨s, m, e, hm, hs⟩ := (isFinite_iff x).1 hx
  · exact (unpacked_sub_zero (h.trans hs)).1 s hs
  · refine ⟨.positive, unpacked_of_canonical
      (?_ : _ = Float.Model.pack (.zero .positive)) trivial⟩
    show Float.Model.pack (sub Format.binary64 (unpacked x) (unpacked y)) = _
    rw [h, hs]
    congr 1
    show normalize Format.binary64 (s.apply _ - s.apply _) _ .positive = _
    rw [Int.sub_self]
    rfl

end Double
open Double

instance : ExactUnits Float where
  IsFinite x := x.isFinite
  zero_beq_zero := rfl
  one_beq_one := rfl
  not_zero_of_one h h0 := by
    obtain ⟨s, hs⟩ := (beq_zero_iff _).1 h0
    exact nomatch hs.symm.trans ((beq_one_iff _).1 h)
  isFinite_of_zero h := (isFinite_iff _).2 (Or.inl ((beq_zero_iff _).1 h))
  isFinite_neg {a} h := by
    show (unpacked (-a)).isFinite
    rw [unpacked_neg]
    obtain ⟨s, hs⟩ | ⟨s, m, e, hm, hs⟩ := (isFinite_iff a).1 h <;> rw [hs] <;> rfl
  div_of_zero h hp h0 := (beq_zero_iff _).2 (unpacked_zero_div h hp h0)
  sub_of_zero h hf hz := by
    obtain ⟨t, ht⟩ := unpacked_mul_zero hf hz
    obtain ⟨s, hs⟩ := (beq_zero_iff _).1 h
    exact (beq_zero_iff _).2 ((unpacked_sub_zero ht).1 s hs)
  sub_of_one h hf hz := by
    obtain ⟨t, ht⟩ := unpacked_mul_zero hf hz
    exact (beq_one_iff _).2 ((unpacked_sub_zero ht).2 _ _ _ _ ((beq_one_iff _).1 h))
  isFinite_sub ha hf hz := by
    obtain ⟨t, ht⟩ := unpacked_mul_zero hf hz
    obtain ⟨s, hs⟩ | ⟨s, m, e, hm, hs⟩ := (isFinite_iff _).1 ha
    · exact (isFinite_iff _).2 (Or.inl ((unpacked_sub_zero ht).1 s hs))
    · exact (isFinite_iff _).2 (Or.inr ⟨s, m, e, hm, (unpacked_sub_zero ht).2 s m e hm hs⟩)
  sub_mul_one hf ho := (beq_zero_iff _).2 (unpacked_sub_self hf (unpacked_mul_one hf ho))
  not_zero_of_lt {t a} h hlt h0 := by
    obtain ⟨s, hs⟩ := (beq_zero_iff a).1 h0
    have hlt := (lt_iff t a).1 hlt
    rw [hs] at hlt
    obtain ⟨u, ht⟩ | ht | ⟨m, e, hm, ht⟩ := unpacked_of_nonneg h <;>
      (rw [ht] at hlt; exact nomatch hlt)
  not_zero_of_lt_neg {t a} h hlt h0 := by
    obtain ⟨s, hs⟩ := (beq_zero_iff a).1 h0
    have hlt := (lt_iff a (-t)).1 hlt
    rw [hs, unpacked_neg] at hlt
    obtain ⟨u, ht⟩ | ht | ⟨m, e, hm, ht⟩ := unpacked_of_nonneg h <;>
      (rw [ht] at hlt; exact nomatch hlt)

end LinearProgram
