import LinearProgram.Proofs.Double.Units

/-!
# Multiplying a double by one and by minus one

A double is the word that its unpacked number packs into, since there is one word for NaN.  So an
operation is known as soon as its result is known unpacked.

* `Double.pack_unpacked`        a double is the word that its unpacked number packs into;
* `Double.one_mul`              a product with `1` is the other factor, bit for bit;
* `Double.neg_one_mul`          a product with `-1` is the negation, bit for bit.
-/

namespace LinearProgram.Double
open Float.Model Float.Model.UnpackedFloat

/-! ### packing what was unpacked -/

theorem pack_normal (s : Sign) {e : BitVec 11} {m : BitVec 52} (htop : e.toNat ≠ 2047) {m' : Nat}
    (hm' : m' = 2 ^ 52 + m.toNat) {e' : Int} (he' : e' = e.toNat - 1075) (h : 0 < m') :
    pack Format.binary64 (.finite s m' e' h) = packComponents Format.binary64 s e m := by
  have hm : m.toNat < 2 ^ 52 := m.isLt
  have he : e.toNat < 2 ^ 11 := e.isLt
  have hlog : m'.log2 = 52 := by
    rw [Nat.log2_eq_iff (by omega)]
    omega
  have hexponent : (e' + ((1023 : Nat) : Int) + ((52 : Nat) : Int)).toNat = e.toNat := by omega
  unfold UnpackedFloat.pack
  dsimp only
  rw [exponentBias_eq, mantissaBits_eq, hexponent, hlog, if_neg (by omega), if_pos rfl]
  have hmantissa : BitVec.ofNat 52 m' = m := by
    apply BitVec.eq_of_toNat_eq
    rw [BitVec.toNat_ofNat]
    omega
  rw [BitVec.ofNat_toNat, BitVec.setWidth_eq]
  exact congrArg _ hmantissa

theorem pack_subnormal (s : Sign) {m : BitVec 52} {e : Int} (he : e = -1074) (h : 0 < m.toNat) :
    pack Format.binary64 (.finite s m.toNat e h) = packComponents Format.binary64 s 0#11 m := by
  subst he
  have hm : m.toNat < 2 ^ 52 := m.isLt
  have hlog : m.toNat.log2 < 52 := (Nat.log2_lt (Nat.ne_of_gt h)).2 hm
  unfold UnpackedFloat.pack
  dsimp only
  rw [exponentBias_eq, mantissaBits_eq, if_neg (by decide), if_neg (by omega), BitVec.ofNat_toNat]
  exact congrArg _ (BitVec.setWidth_eq m)

theorem packComponents_parts (b : BitVec Format.binary64.numBits) :
    packComponents Format.binary64 (.ofBitVec (unpackSign b)) (unpackExponent b)
      (unpackMantissa b) = b := by
  have hsign : (Sign.ofBitVec (unpackSign b)).toBitVec = unpackSign b := by
    generalize unpackSign b = s
    revert s
    decide
  rw [packComponents, hsign]
  apply BitVec.eq_of_getLsbD_eq
  intro i hi
  simp only [unpackSign, unpackExponent, unpackMantissa]
  grind

theorem pack_unpack {b : BitVec Format.binary64.numBits} (h : Format.binary64.Valid b) :
    pack Format.binary64 (unpack Format.binary64 b) = b := by
  have hparts := packComponents_parts b
  unfold UnpackedFloat.unpack
  dsimp only
  rw [exponentBias_eq]
  split
  next htop =>
    rw [htop] at hparts
    split
    next hzero =>
      rw [hzero] at hparts
      exact hparts
    next hne => exact (h.eq_packedNaN htop hne).symm
  next htop =>
  have htop : (unpackExponent b).toNat ≠ 2047 := fun h => htop (BitVec.eq_of_toNat_eq h)
  split
  next hsub =>
    have hzero : (unpackExponent b).toNat = 0 := congrArg BitVec.toNat hsub
    rw [hsub] at hparts
    split
    next hm =>
      rw [hm] at hparts
      exact hparts
    next => exact (pack_subnormal _ (by omega) _).trans hparts
  next =>
    exact (pack_normal _ htop (toNat_implicit _) (by omega) _).trans hparts

theorem pack_unpacked (x : Float) : Float.ofModel (Float.Model.pack (unpacked x)) = x := by
  obtain ⟨⟨bits, hvalid⟩⟩ := x
  have hbits : (⟨pack Format.binary64 (unpack Format.binary64 bits.toBitVec)⟩ : UInt64) = bits := by
    rw [pack_unpack hvalid]
  show Float.ofModel ⟨⟨pack Format.binary64 (unpack Format.binary64 bits.toBitVec)⟩, _⟩ = _
  simp only [hbits]

/-! ### products with a sign -/

/-- a product with a power of two that has only a sign -/
theorem unpacked_unit_mul {u : Float} {s : Sign}
    (hu : unpacked u = .finite s (2 ^ 52) (-52) (by decide)) (x : Float) :
    u * x = Float.ofModel (Float.Model.pack (match unpacked x with
      | .notANumber => .notANumber
      | .infinity t => .infinity (s * t)
      | .zero t => .zero (s * t)
      | .finite t m e hm => .finite (s * t) m e hm)) := by
  have hcanon := canonical_unpacked x
  show Float.ofModel (Float.Model.pack (mul Format.binary64 (unpacked u) (unpacked x))) = _
  rw [hu]
  cases hx : unpacked x with
  | finite t m e hm =>
    rw [hx] at hcanon
    have hcanon : Canonical (.finite (s * t) m e hm) := hcanon
    show Float.ofModel (Float.Model.pack
      (roundWithAccuracy Format.binary64 (s * t) (2 ^ 52 * m) (-52 + e) .exact)) = _
    rw [Nat.mul_comm, Int.add_comm, roundWithAccuracy_exact hm _ hcanon]
  | _ => rfl

theorem one_mul (x : Float) : 1 * x = x := by
  have hone : unpacked 1 = .finite .positive (2 ^ 52) (-52) (by decide) := rfl
  rw [unpacked_unit_mul hone]
  conv_rhs => rw [← pack_unpacked x]
  cases unpacked x with
  | notANumber => rfl
  | infinity t => cases t <;> rfl
  | zero t => cases t <;> rfl
  | finite t m e hm => cases t <;> rfl

theorem neg_one_mul (x : Float) : -1 * x = -x := by
  have hone : unpacked (-1) = .finite .negative (2 ^ 52) (-52) (by decide) := rfl
  rw [unpacked_unit_mul hone]
  show _ = Float.ofModel (Float.Model.pack (unpacked x).neg)
  cases unpacked x with
  | notANumber => rfl
  | infinity t => cases t <;> rfl
  | zero t => cases t <;> rfl
  | finite t m e hm => cases t <;> rfl

end LinearProgram.Double
