import LinearProgram.Proofs.Decimal.Digits
import LinearProgram.Proofs.Decimal.Rounding
import LinearProgram.Proofs.Double.Total
import LinearProgram.Report

/-!
# Numbers as they are shown

A number is shown as a whole number of units of its last place, nearest to its magnitude.  That
number grows with the rank, so what a text looks like, how long it is and whether it has a digit
other than zero, comes down to the rank at which it reaches a power of ten, and so to a comparison
of doubles.

* `scaled`, `scaled_mono`, `le_scaled_iff`   the whole number that is written;
* `shownAsZero_iff`              the numbers that are shown as zero at once;
* `length_shown_le_iff`          the numbers whose text fits a width;
* `negativeZero_shown_iff`       the numbers shown as a minus sign before zeros.
-/

namespace LinearProgram
open Double

/-! ### rounding -/

theorem roundQuotient_mono {num num' : Nat} (h : num ≤ num') (den : Nat) :
    roundQuotient num den ≤ roundQuotient num' den := by
  have hquotient : num / den ≤ num' / den := Nat.div_le_div_right h
  rcases Nat.lt_or_eq_of_le hquotient with hlt | heq
  · have hcases := roundQuotient_cases num den
    have hcases' := roundQuotient_cases num' den
    omega
  · -- with one quotient, the remainders are in order
    have hrest : num % den ≤ num' % den := by
      have hnum := Nat.div_add_mod num den
      have hnum' := Nat.div_add_mod num' den
      rw [heq] at hnum
      omega
    simp only [roundQuotient, heq]
    split_ifs <;> omega

/-- a magnitude in units of the last of so many places, rounded -/
def scaled (places rank : Nat) : Nat :=
  roundQuotient (units rank * Nat.pow 10 places) unitsPerOne

theorem scaled_mono (places : Nat) {r r' : Nat} (h : r ≤ r') :
    scaled places r ≤ scaled places r' :=
  roundQuotient_mono (Nat.mul_le_mul_right _ (units_mono h)) _

/-- a rank at which the number is reached, and not just below it, is the least one -/
theorem le_scaled_iff {places n least : Nat} (hbelow : scaled places (least - 1) < n)
    (hat : n ≤ scaled places least) (r : Nat) : n ≤ scaled places r ↔ least ≤ r := by
  constructor
  · intro hn
    by_contra hlt
    have hle := scaled_mono places (Nat.le_sub_one_of_lt (not_le.1 hlt))
    omega
  · intro hle
    exact hat.trans (scaled_mono places hle)

/-! ### the text of a rounded number -/

theorem length_digitChars_le_iff {n k : Nat} (hk : 0 < k) :
    (digitChars n).length ≤ k ↔ n < 10 ^ k := Nat.length_toDigits_le_iff (by decide) hk

/-- digits that are all zero are those of zero -/
theorem digitChars_zeros_iff {n : Nat} : (∀ c ∈ digitChars n, c = '0') ↔ n = 0 := by
  constructor
  · intro h
    rw [← digitsValue_digitChars n, List.eq_replicate_of_mem h, digitsValue_replicate_zero]
  · rintro rfl c hc
    exact List.mem_singleton.1 hc

section
variable {x : Float} {places : Nat}

/-- the digits after the point -/
def fraction (places n : Nat) : List Char :=
  List.replicate (places - (digitChars (n % 10 ^ places)).length) '0' ++
    digitChars (n % 10 ^ places)

theorem fixedPlaces_eq (hx : isFinite x) (places : Nat) : fixedPlaces places x =
    (if isNegative x then ['-'] else []) ++ (digitChars (scaled places (rank x) / 10 ^ places) ++
      '.' :: fraction places (scaled places (rank x))) := by
  rw [fixedPlaces, if_pos hx, ← List.append_assoc]
  rfl

theorem length_fraction (hplaces : 0 < places) (n : Nat) : (fraction places n).length = places := by
  have hle : (digitChars (n % 10 ^ places)).length ≤ places :=
    (length_digitChars_le_iff hplaces).2 (Nat.mod_lt _ (Nat.pow_pos (by decide)))
  rw [fraction, List.length_append, List.length_replicate]
  omega

/-- a text of so many characters has so many digits before the point -/
theorem length_fixedPlaces_le_iff (hx : isFinite x) (hplaces : 0 < places) {k : Nat} (hk : 0 < k) :
    (fixedPlaces places x).length ≤ (if isNegative x then 1 else 0) + (k + (1 + places)) ↔
      scaled places (rank x) < 10 ^ (k + places) := by
  rw [Nat.pow_add, ← Nat.div_lt_iff_lt_mul (Nat.pow_pos (by decide)),
    ← length_digitChars_le_iff hk, fixedPlaces_eq hx, List.length_append, List.length_append,
    List.length_cons, length_fraction hplaces]
  cases isNegative x
  · simp only [Bool.false_eq_true, if_false, List.length_nil]
    omega
  · simp only [if_true, List.length_singleton]
    omega

/-- a minus sign followed by nothing but zeros and the point -/
def NegativeZero (text : List Char) : Prop :=
  ∃ rest, text = '-' :: rest ∧ ∀ c ∈ rest, c = '0' ∨ c = '.'

theorem zeros_fraction_iff {n : Nat} :
    (∀ c ∈ fraction places n, c = '0') ↔ n % 10 ^ places = 0 := by
  rw [← digitChars_zeros_iff, fraction]
  constructor
  · intro h c hc
    exact h c (List.mem_append_right _ hc)
  · intro h c hc
    rcases List.mem_append.1 hc with hc | hc
    · exact List.eq_of_mem_replicate hc
    · exact h c hc

theorem isDigit_of_mem_fraction {n : Nat} {c : Char} (h : c ∈ fraction places n) : c.isDigit := by
  rcases List.mem_append.1 h with h | h
  · rw [List.eq_of_mem_replicate h]
    decide
  · exact isDigit_of_mem_digitChars h

/-- digits around a point are zeros and the point exactly for the number zero -/
theorem zeros_digits_iff {n : Nat} :
    (∀ c ∈ digitChars (n / 10 ^ places) ++ '.' :: fraction places n, c = '0' ∨ c = '.') ↔
      n = 0 := by
  have hpoint : ∀ c : Char, c.isDigit → c ≠ '.' := by
    rintro c hc rfl
    exact absurd hc (by decide)
  have hn := Nat.div_add_mod n (10 ^ places)
  constructor
  · intro h
    have hwhole : n / 10 ^ places = 0 := by
      rw [← digitChars_zeros_iff]
      intro c hc
      exact (h c (List.mem_append_left _ hc)).resolve_right
        (hpoint c (isDigit_of_mem_digitChars hc))
    have hrest : n % 10 ^ places = 0 := by
      rw [← zeros_fraction_iff]
      intro c hc
      exact (h c (List.mem_append_right _ (List.mem_cons_of_mem _ hc))).resolve_right
        (hpoint c (isDigit_of_mem_fraction hc))
    rw [← hn, hwhole, hrest, Nat.mul_zero]
  · rintro rfl c hc
    rcases List.mem_append.1 hc with hc | hc
    · exact Or.inl (digitChars_zeros_iff.2 (Nat.zero_div _) c hc)
    rcases List.mem_cons.1 hc with hc | hc
    · exact Or.inr hc
    · exact Or.inl (zeros_fraction_iff.2 (Nat.zero_mod _) c hc)

theorem negativeZero_fixedPlaces_iff : NegativeZero (fixedPlaces places x) ↔
    isFinite x ∧ isNegative x ∧ scaled places (rank x) = 0 := by
  by_cases hx : isFinite x
  · rw [fixedPlaces_eq hx]
    cases hsign : isNegative x with
    | true =>
      rw [if_pos rfl, List.singleton_append, NegativeZero]
      simp only [List.cons.injEq, true_and, exists_eq_left', zeros_digits_iff, hx]
    | false =>
      -- the text starts with a digit
      rw [if_neg Bool.false_ne_true, List.nil_append]
      refine ⟨?_, fun h => absurd h.2.1 Bool.false_ne_true⟩
      rintro ⟨rest, htext, -⟩
      obtain ⟨c, digits, hdigits⟩ :=
        List.exists_cons_of_ne_nil (digitChars_ne_nil (scaled places (rank x) / 10 ^ places))
      have hdigit : c.isDigit := by
        apply isDigit_of_mem_digitChars (n := scaled places (rank x) / 10 ^ places)
        rw [hdigits]
        exact List.mem_cons_self
      rw [hdigits, List.cons_append] at htext
      rw [(List.cons.inj htext).1] at hdigit
      exact absurd hdigit (by decide)
  · refine ⟨?_, fun h => absurd h.1 hx⟩
    rintro ⟨rest, htext, hrest⟩
    rw [fixedPlaces, if_neg hx, nonFinite] at htext
    split_ifs at htext
    · cases htext
    · obtain ⟨-, rfl⟩ := List.cons.inj htext
      exact absurd (hrest 'i' List.mem_cons_self) (by decide)
    · cases htext

end

/-! ### comparisons with a bound -/

/-- a number with no sign, to bound others on both sides of zero -/
structure IsBound (a : Float) : Prop where
  isNaN_eq : a.isNaN = false
  isNegative_eq : isNegative a = false

instance (a : Float) : Decidable (IsBound a) :=
  decidable_of_iff (a.isNaN = false ∧ isNegative a = false)
    ⟨fun h => ⟨h.1, h.2⟩, fun h => ⟨h.isNaN_eq, h.isNegative_eq⟩⟩

namespace IsBound

variable {a x : Float} (ha : IsBound a)
include ha

theorem rank_le : rank a ≤ infinityRank := rank_le_of_isNaN_eq_false ha.isNaN_eq

theorem rank_neg_le : rank (-a) ≤ infinityRank :=
  rank_le_of_isNaN_eq_false ((isNaN_neg a).trans ha.isNaN_eq)

theorem position_eq : position a = rank a := by
  rw [position, ha.isNegative_eq, if_neg Bool.false_ne_true]

theorem position_neg_eq : position (-a) = -(rank a : Int) := by
  rw [position_neg ha.rank_le, ha.position_eq]

variable (hx : rank x ≤ infinityRank)
include hx

theorem lt_iff : x < a ↔ position x < rank a := by
  rw [lt_iff_position hx ha.rank_le, ha.position_eq]

theorem neg_lt_iff : -a < x ↔ -(rank a : Int) < position x := by
  rw [lt_iff_position ha.rank_neg_le hx, ha.position_neg_eq]

theorem neg_le_iff : -a ≤ x ↔ -(rank a : Int) ≤ position x := by
  rw [le_iff_position ha.rank_neg_le hx, ha.position_neg_eq]

theorem le_neg_iff : x ≤ -a ↔ position x ≤ -(rank a : Int) := by
  rw [le_iff_position hx ha.rank_neg_le, ha.position_neg_eq]

end IsBound

/-! ### numbers as shown -/

section
variable {x : Float} {places : Nat}

theorem isFinite_of_rank_lt {r : Nat} (hr : r ≤ infinityRank) (h : rank x < r) : isFinite x :=
  decide_eq_true (h.trans_le hr)

theorem shownAsZero_iff : shownAsZero x ↔ rank x < rank 5e-13 := by
  have hbound : IsBound 5e-13 := by decide +kernel
  have hposition : position x.abs = rank x := by
    rw [position, isNegative_abs, if_neg Bool.false_ne_true, rank_abs]
  show decide (x.abs < 5e-13) = true ↔ _
  rw [decide_eq_true_iff]
  constructor
  · intro h
    have hnumber := rank_le_of_isNaN_eq_false (isNaN_of_lt h).1
    rw [hbound.lt_iff hnumber, hposition] at h
    exact Int.ofNat_lt.1 h
  · intro h
    have hnumber : rank x.abs ≤ infinityRank := by
      rw [rank_abs]
      exact h.le.trans hbound.rank_le
    rw [hbound.lt_iff hnumber, hposition]
    exact Int.ofNat_lt.2 h

theorem shown_of_zero (h : shownAsZero x) : shown places x = fixedPlaces places 0 := by
  rw [shown, if_pos h]

theorem shown_of_not (h : ¬ shownAsZero x) : shown places x = fixedPlaces places x := by
  rw [shown, if_neg h]

/-- A number is shown as a minus sign before zeros from the threshold of its zero on, up to the
number that reaches one unit of the last place. -/
theorem negativeZero_shown_iff {c : Float} (hc : IsBound c)
    (hbelow : scaled places (rank c - 1) < 1) (hat : 1 ≤ scaled places (rank c)) :
    NegativeZero (shown places x) ↔ -c < x ∧ x ≤ -5e-13 := by
  have hzero : IsBound 5e-13 ∧ 0 < rank 5e-13 := by decide +kernel
  have hzeroText : isNegative 0 = false := by decide +kernel
  have hleast := le_scaled_iff hbelow hat (rank x)
  have hinterval : -c < x ∧ x ≤ -5e-13 ↔
      isNegative x ∧ rank 5e-13 ≤ rank x ∧ rank x < rank c := by
    constructor
    · intro h
      have hx := rank_le_of_isNaN_eq_false (isNaN_of_lt h.1).2
      rw [hc.neg_lt_iff hx, hzero.1.le_neg_iff hx, position] at h
      split_ifs at h with hneg
      · exact ⟨hneg, by omega, by omega⟩
      · omega
    · rintro ⟨hneg, hlow, hhigh⟩
      have hx : rank x ≤ infinityRank := hhigh.le.trans hc.rank_le
      rw [hc.neg_lt_iff hx, hzero.1.le_neg_iff hx, position, if_pos hneg]
      omega
  rw [hinterval]
  by_cases hshown : shownAsZero x
  · rw [shown_of_zero hshown, negativeZero_fixedPlaces_iff, hzeroText]
    rw [shownAsZero_iff] at hshown
    constructor
    · rintro ⟨-, h, -⟩
      cases h
    · omega
  · rw [shown_of_not hshown, negativeZero_fixedPlaces_iff]
    rw [shownAsZero_iff, not_lt] at hshown
    constructor
    · rintro ⟨-, hneg, hscaled⟩
      exact ⟨hneg, hshown, by omega⟩
    · rintro ⟨hneg, -, hhigh⟩
      exact ⟨isFinite_of_rank_lt hc.rank_le hhigh, hneg, by omega⟩

/-- what is not finite is short -/
theorem length_shown_of_not_isFinite (hx : ¬ isFinite x) : (shown places x).length ≤ 4 := by
  have hzero : ¬ shownAsZero x := by
    have hbound : IsBound 5e-13 := by decide +kernel
    rw [shownAsZero_iff]
    exact fun h => hx (isFinite_of_rank_lt hbound.rank_le h)
  rw [shown_of_not hzero, fixedPlaces, if_neg hx, nonFinite]
  split_ifs <;> decide

/-- With three places, the text of a number fits a width up to the ranks at which it has one digit
too many: one for the negative numbers, which need room for their sign, and one for the others. -/
theorem length_shown_le_iff {width low high : Nat} (hwidth : 6 ≤ width)
    (hlow : ∀ r, 10 ^ (width - 2) ≤ scaled 3 r ↔ low ≤ r)
    (hhigh : ∀ r, 10 ^ (width - 1) ≤ scaled 3 r ↔ high ≤ r)
    (hzero : rank 5e-13 ≤ low ∧ rank 5e-13 ≤ high) :
    (shown 3 x).length ≤ width ↔ (isFinite x → -(low : Int) < position x ∧ position x < high) := by
  by_cases hx : isFinite x
  · rw [forall_prop_of_true hx, position]
    by_cases hshown : shownAsZero x
    · have htext : (fixedPlaces 3 0).length = 5 := by decide +kernel
      rw [shown_of_zero hshown, htext]
      rw [shownAsZero_iff] at hshown
      split_ifs <;> omega
    · rw [shown_of_not hshown]
      have hlow := hlow (rank x)
      have hhigh := hhigh (rank x)
      have hpos : 0 < rank 5e-13 := by decide +kernel
      cases hsign : isNegative x with
      | true =>
        have hfits := @length_fixedPlaces_le_iff x 3 hx (by decide) (width - 5) (by omega)
        rw [hsign, if_pos rfl, show 1 + (width - 5 + (1 + 3)) = width by omega,
          show width - 5 + 3 = width - 2 by omega] at hfits
        rw [if_pos rfl, hfits]
        omega
      | false =>
        have hfits := @length_fixedPlaces_le_iff x 3 hx (by decide) (width - 4) (by omega)
        rw [hsign, if_neg Bool.false_ne_true, show 0 + (width - 4 + (1 + 3)) = width by omega,
          show width - 4 + 3 = width - 1 by omega] at hfits
        rw [if_neg Bool.false_ne_true, hfits]
        omega
  · have hshort := @length_shown_of_not_isFinite x 3 hx
    exact ⟨fun _ h => absurd h hx, fun _ => by omega⟩

end

end LinearProgram
