import Mathlib

/-!
# Doubles unpacked

A double is a packed word; its arithmetic unpacks the words, computes, and packs the result.
Here the two directions are joined: what a word unpacks to is canonical, and a canonical number
comes back from its word as it was.

* `Double.canonical_unpack`   a word unpacks to a canonical number;
* `Double.unpack_pack`        packing a canonical number loses nothing.
-/

namespace LinearProgram.Double
open Float.Model Float.Model.UnpackedFloat

/-- a mantissa of 53 bits, or of fewer at the least exponent -/
def Canonical : UnpackedFloat → Prop
  | .finite _ m e _ => m < 2 ^ 53 ∧ e ≤ 971 ∧ (2 ^ 52 ≤ m ∧ -1074 ≤ e ∨ e = -1074)
  | _ => True

theorem exponentBias_eq : Format.binary64.exponentBias = 1023 := rfl
theorem mantissaBits_eq : Format.binary64.mantissaBits = 53 := rfl

theorem finite_congr {s : Sign} {m m' : Nat} {e e' : Int} (hm : m = m') (he : e = e')
    (h : 0 < m) (h' : 0 < m') : UnpackedFloat.finite s m e h = .finite s m' e' h' := by
  subst hm he
  rfl

/-! ### the parts of a word -/

theorem toNat_implicit (m : BitVec 52) : (1#1 ++ m).toNat = 2 ^ 52 + m.toNat := by
  rw [BitVec.toNat_append, ← Nat.shiftLeft_add_eq_or_of_lt m.isLt]
  rfl

theorem unpack_normal (s : Sign) {e : BitVec 11} (m : BitVec 52) (h0 : e.toNat ≠ 0)
    (htop : e.toNat ≠ 2047) :
    unpack Format.binary64 (packComponents Format.binary64 s e m) =
      .finite s (2 ^ 52 + m.toNat) (e.toNat - 1075) (by omega) := by
  have h0 : e ≠ 0#_ := fun h => h0 (congrArg BitVec.toNat h)
  have htop : e ≠ -1#_ := fun h => htop (congrArg BitVec.toNat h)
  unfold UnpackedFloat.unpack
  simp only [unpackMantissa_packComponents, unpackExponent_packComponents,
    unpackSign_packComponents, Sign.ofBitVec_toBitVec, exponentBias_eq]
  rw [if_neg htop, if_neg h0]
  exact finite_congr (toNat_implicit m) rfl _ _

theorem unpack_subnormal (s : Sign) {m : BitVec 52} (h : 0 < m.toNat) :
    unpack Format.binary64 (packComponents Format.binary64 s 0#11 m) =
      .finite s m.toNat (-1074) h := by
  have hm : m ≠ 0#_ := fun h0 => by rw [h0] at h; exact absurd h (by decide)
  unfold UnpackedFloat.unpack
  simp only [unpackMantissa_packComponents, unpackExponent_packComponents,
    unpackSign_packComponents, Sign.ofBitVec_toBitVec, exponentBias_eq]
  rw [if_neg (by decide), if_pos trivial, dif_neg hm]
  rfl

/-! ### there and back -/

theorem canonical_unpack (b : BitVec Format.binary64.numBits) :
    Canonical (unpack Format.binary64 b) := by
  have hm : (unpackMantissa b).toNat < 2 ^ 52 := (unpackMantissa b).isLt
  have he : (unpackExponent b).toNat < 2 ^ 11 := (unpackExponent b).isLt
  unfold UnpackedFloat.unpack
  dsimp only
  rw [exponentBias_eq]
  split
  · split <;> trivial
  next htop =>
  have htop : (unpackExponent b).toNat ≠ 2047 := fun h => htop (BitVec.eq_of_toNat_eq h)
  split
  next hzero =>
    split
    · trivial
    · refine ⟨by omega, ?_, Or.inr ?_⟩ <;> rw [hzero] <;> decide
  next hzero =>
    have hzero : (unpackExponent b).toNat ≠ 0 := fun h => hzero (BitVec.eq_of_toNat_eq h)
    have himplicit := toNat_implicit (unpackMantissa b)
    exact ⟨by omega, by omega, Or.inl ⟨by omega, by omega⟩⟩

theorem unpack_pack {u : UnpackedFloat} (h : Canonical u) :
    unpack Format.binary64 (pack Format.binary64 u) = u := by
  cases u with
  | notANumber => rfl
  | infinity s => cases s <;> rfl
  | zero s => cases s <;> rfl
  | finite s m e hm =>
    obtain ⟨hlt, htop, hlow⟩ := h
    have hne : m ≠ 0 := Nat.ne_of_gt hm
    have hlog : m.log2 < 53 := (Nat.log2_lt hne).2 hlt
    -- the biased exponent, before it is cut to eleven bits
    have hb : ((e + ((1023 : Nat) : Int) + ((52 : Nat) : Int)).toNat : Int) = e + 1075 := by omega
    unfold UnpackedFloat.pack
    dsimp only
    rw [exponentBias_eq, mantissaBits_eq]
    generalize (e + ((1023 : Nat) : Int) + ((52 : Nat) : Int)).toNat = b at hb ⊢
    rw [if_neg (by omega)]
    split
    next hnormal =>
      have hge : 2 ^ 52 ≤ m := (Nat.le_log2 hne).1 (by omega)
      have hexp : (BitVec.ofNat 11 b).toNat = b := by
        rw [BitVec.toNat_ofNat, Nat.mod_eq_of_lt (by omega)]
      have hmant : (BitVec.ofNat 52 m).toNat = m - 2 ^ 52 := by
        rw [BitVec.toNat_ofNat]
        omega
      refine (unpack_normal s _ ?_ ?_).trans (finite_congr ?_ ?_ _ _) <;> omega
    next hsub =>
      have hltsub : m < 2 ^ 52 := (Nat.log2_lt hne).1 (by omega)
      have hmant : (BitVec.ofNat 52 m).toNat = m := by
        rw [BitVec.toNat_ofNat, Nat.mod_eq_of_lt hltsub]
      exact (unpack_subnormal s (by omega)).trans (finite_congr hmant (by omega) _ _)

end LinearProgram.Double
