import LinearProgram.Decimal.Double
import LinearProgram.Proofs.Double.Units

/-!
# Ranks of doubles

A double is put together from its sign and its rank, and is finite when its rank is below that of
infinity.

* `Double.ofRank_rank`    the double with the sign and the rank of a double;
* `Double.isFinite_eq`    finite by rank and finite by its word.
-/

namespace LinearProgram.Double
open Float.Model Float.Model.UnpackedFloat

theorem ofRank_rank (x : Float) : ofRank (isNegative x) (rank x) = x := by
  have hbits : x.toBits.toNat < 2 ^ 64 := x.toBits.toNat_lt
  have hword : (if isNegative x then 2 ^ 63 + rank x else rank x) = x.toBits.toNat := by
    have hrank : rank x = x.toBits.toNat % 2 ^ 63 := rfl
    have hnegative : isNegative x = decide (2 ^ 63 ≤ x.toBits.toNat) := rfl
    rw [hrank, hnegative]
    split_ifs with h <;> rw [decide_eq_true_iff] at h <;> omega
  have hofRank : ofRank (isNegative x) (rank x) =
      Float.ofBits (UInt64.ofNat (if isNegative x then 2 ^ 63 + rank x else rank x)) := rfl
  rw [hofRank, hword, UInt64.ofNat_toNat, Float.ofBits_toBits]

theorem toNat_unpackExponent (b : BitVec Format.binary64.numBits) :
    (unpackExponent b).toNat = b.toNat / 2 ^ 52 % 2 ^ 11 := by
  rw [unpackExponent, BitVec.toNat_cast, BitVec.extractLsb_toNat, Nat.shiftRight_eq_div_pow]
  rfl

theorem isFinite_unpack_iff (b : BitVec Format.binary64.numBits) :
    (unpack Format.binary64 b).isFinite ↔ (unpackExponent b).toNat ≠ 2047 := by
  unfold UnpackedFloat.unpack
  dsimp only
  split
  next htop =>
    have hexponent : (unpackExponent b).toNat = 2047 := congrArg BitVec.toNat htop
    split <;> exact ⟨nofun, fun h => absurd hexponent h⟩
  next htop =>
    have hexponent : (unpackExponent b).toNat ≠ 2047 := fun h => htop (BitVec.eq_of_toNat_eq h)
    split
    · split <;> exact ⟨fun _ => hexponent, fun _ => rfl⟩
    · exact ⟨fun _ => hexponent, fun _ => rfl⟩

theorem isFinite_eq (x : Float) : isFinite x = x.isFinite := by
  have hbits : x.toBits.toNat < 2 ^ 64 := x.toBits.toNat_lt
  have hunpack : x.isFinite ↔ x.toBits.toNat / 2 ^ 52 % 2 ^ 11 ≠ 2047 := by
    have hiff := isFinite_unpack_iff x.toBits.toBitVec
    rw [toNat_unpackExponent] at hiff
    exact hiff
  have hrank : isFinite x = decide (x.toBits.toNat % 2 ^ 63 < 2047 * 2 ^ 52) := rfl
  rw [Bool.eq_iff_iff, hunpack, hrank, decide_eq_true_iff]
  omega

end LinearProgram.Double
