import Mathlib.Algebra.Order.Field.Power
import Mathlib.Algebra.Order.Field.Rat
import Mathlib.Tactic.NormNum
import Mathlib.Tactic.Ring
import LinearProgram.Decimal.Numeral

/-!
# Digits and powers of ten

* `digitsValue_digitChars`   the digits of a number spell it;
* `lt_ten_pow_length`, `ten_pow_length_le`   how many digits a number has;
* `ten_zpow`                 a power of ten as a quotient, of which one part is one;
* `Decimal.value`            the magnitude of a decimal.
-/

namespace LinearProgram

/-! ### digits -/

theorem digitsValue_eq (digits : List Char) : digitsValue digits = Nat.ofDigitChars 10 digits 0 :=
  rfl

theorem digitsValue_digitChars (n : Nat) : digitsValue (digitChars n) = n :=
  (digitsValue_eq _).trans Nat.ofDigitChars_ten_toDigits

theorem isDigit_of_mem_digitChars {n : Nat} {c : Char} (h : c ∈ digitChars n) : c.isDigit :=
  Nat.isDigit_of_mem_toDigits (by decide) (by decide) h

theorem digitChars_ne_nil (n : Nat) : digitChars n ≠ [] := Nat.toDigits_ne_nil

theorem length_digitChars_pos (n : Nat) : 0 < (digitChars n).length :=
  List.length_pos_iff.2 (digitChars_ne_nil n)

theorem lt_ten_pow_length (n : Nat) : n < 10 ^ (digitChars n).length :=
  (Nat.length_toDigits_le_iff (by decide) (length_digitChars_pos n)).1 (Nat.le_refl _)

theorem ten_pow_length_le {n : Nat} (hn : 0 < n) : 10 ^ ((digitChars n).length - 1) ≤ n := by
  rcases Nat.eq_zero_or_pos ((digitChars n).length - 1) with hone | hmore
  · rw [hone]
    exact hn
  · by_contra hlt
    have hle := (Nat.length_toDigits_le_iff (by decide) hmore).2 (not_le.1 hlt)
    have hpos := length_digitChars_pos n
    rw [digitChars] at hmore hle hpos
    omega

theorem digitsValue_concat (a : List Char) (c : Char) :
    digitsValue (a ++ [c]) = 10 * digitsValue a + (c.toNat - '0'.toNat) := by
  rw [digitsValue, List.foldl_append]
  rfl

theorem digitsValue_append (a b : List Char) :
    digitsValue (a ++ b) = digitsValue a * 10 ^ b.length + digitsValue b := by
  induction b generalizing a with
  | nil => simp [digitsValue]
  | cons c b ih =>
    have hhead : digitsValue (c :: b) = (c.toNat - '0'.toNat) * 10 ^ b.length + digitsValue b := by
      rw [← List.singleton_append, ih]
      simp [digitsValue]
    rw [← List.singleton_append, ← List.append_assoc, ih, digitsValue_concat, List.singleton_append,
      hhead, List.length_cons]
    ring

theorem digitsValue_replicate_zero (n : Nat) : digitsValue (List.replicate n '0') = 0 := by
  induction n with
  | zero => rfl
  | succ n ih =>
    rw [List.replicate_succ', digitsValue_concat, ih]
    rfl

/-! ### powers of ten -/

theorem ten_zpow (e : ℤ) : (10 : ℚ) ^ e = 10 ^ e.toNat / 10 ^ (-e).toNat := by
  rcases le_total 0 e with h | h
  · obtain ⟨n, rfl⟩ := Int.eq_ofNat_of_zero_le h
    simp
  · obtain ⟨n, hn⟩ := Int.eq_ofNat_of_zero_le (neg_nonneg.2 h)
    obtain rfl : e = -n := by omega
    simp

/-- the magnitude of a decimal -/
def Decimal.value (d : Decimal) : ℚ := d.digits * 10 ^ d.exponent

end LinearProgram
