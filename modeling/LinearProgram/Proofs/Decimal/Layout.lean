import LinearProgram.Decimal.Layout
import LinearProgram.Proofs.Decimal.Numeral
import LinearProgram.Proofs.Decimal.Shortest
import LinearProgram.Proofs.Double.Rank

/-!
# The text of a double reads back as the double

Wherever the point goes, the numeral of a double has the value of its shortest decimal, which
rounds to the double; and the text of a numeral spells it.

* `Layout.placed_place`      placing the point keeps the value;
* `Decimal.nearest_eq`       a decimal in the interval of a rank reads as that rank;
* `Numeral.spells_chars`     the text of a numeral;
* `Layout.double?_numeral`   the numeral of a finite double, in any layout;
* `readNumber?_chars`        its text.
-/

namespace LinearProgram

/-! ### the value of digits -/

theorem digitsValue_zeros_append (n : Nat) (digits : List Char) :
    digitsValue (List.replicate n '0' ++ digits) = digitsValue digits := by
  rw [digitsValue_append, digitsValue_replicate_zero, Nat.zero_mul, Nat.zero_add]

theorem value_append_zeros (digits : List Char) (n : Nat) (e : ℤ) :
    (digitsValue (digits ++ List.replicate n '0') : ℚ) * 10 ^ (e - n) =
      digitsValue digits * 10 ^ e := by
  rw [digitsValue_append, digitsValue_replicate_zero, List.length_replicate, Nat.add_zero,
    zpow_sub₀ (by norm_num), zpow_natCast]
  push_cast
  have hpos : (10 : ℚ) ^ n ≠ 0 := by positivity
  field_simp

namespace Layout

/-- the digits of a number, and its value with the first of them at the power of ten -/
theorem significant_spec {digits : Nat} (hdigits : 0 < digits) (exponent : ℤ) :
    (∀ c ∈ (significant digits exponent).1, c.isDigit) ∧
      0 < digitsValue (significant digits exponent).1 ∧
      (digitsValue (significant digits exponent).1 : ℚ) *
          10 ^ ((significant digits exponent).2 + 1 - (significant digits exponent).1.length) =
        digits * 10 ^ exponent := by
  have hsplit := List.rdropWhile_append_rtakeWhile (p := (· == '0')) (l := digitChars digits)
  have hzeros : (digitChars digits).rtakeWhile (· == '0') =
      List.replicate ((digitChars digits).rtakeWhile (· == '0')).length '0' :=
    List.eq_replicate_of_mem fun c hc => beq_iff_eq.1 (List.mem_rtakeWhile_imp (p := (· == '0')) hc)
  have hvalue := digitsValue_digitChars digits
  have hlength := congrArg List.length hsplit
  have hkept : (significant digits exponent).1 = (digitChars digits).rdropWhile (· == '0') := rfl
  have hplace : (significant digits exponent).2 = exponent + (digitChars digits).length - 1 := rfl
  rw [hkept, hplace]
  rw [hzeros] at hsplit hlength
  generalize (digitChars digits).rdropWhile (· == '0') = kept at hsplit hlength ⊢
  generalize ((digitChars digits).rtakeWhile (· == '0')).length = k at hsplit hlength
  rw [List.length_append, List.length_replicate] at hlength
  have hdigit : ∀ c ∈ kept, c.isDigit := fun c hc =>
    isDigit_of_mem_digitChars (hsplit ▸ List.mem_append_left _ hc)
  rw [← hsplit] at hvalue
  refine ⟨hdigit, ?_, ?_⟩
  · rw [digitsValue_append, digitsValue_replicate_zero, Nat.add_zero] at hvalue
    exact Nat.pos_of_mul_pos_right (hvalue ▸ hdigits)
  · rw [← value_append_zeros kept k, hvalue, ← hlength]
    congr 2
    push_cast
    ring

/-! ### the point -/

/-- the digits with the point somewhere, and nothing but digits around it -/
structure Placed (n : Numeral) (negative : Bool) (value : ℚ) : Prop where
  negative_eq : n.negative = negative
  whole_ne_nil : n.whole ≠ []
  whole : ∀ c ∈ n.whole, c.isDigit
  fraction : ∀ c ∈ n.fraction, c.isDigit
  value_eq : n.decimal.value = value

theorem value_whole_fraction (negative : Bool) (whole fraction : List Char) (exponent : Option ℤ) :
    (Numeral.decimal ⟨negative, whole, fraction, exponent⟩).value =
      digitsValue (whole ++ fraction) * 10 ^ (exponent.getD 0 - fraction.length) := rfl

theorem placed_of_parts {negative : Bool} {whole fraction digits : List Char} {exponent : Option ℤ}
    {e : ℤ} {k : Nat} (hwhole : whole ≠ []) (hdigits : ∀ c ∈ whole ++ fraction, c.isDigit)
    (hvalue : digitsValue (whole ++ fraction) = digitsValue (digits ++ List.replicate k '0'))
    (hexponent : exponent.getD 0 - fraction.length = e - k) :
    Placed ⟨negative, whole, fraction, exponent⟩ negative (digitsValue digits * 10 ^ e) where
  negative_eq := rfl
  whole_ne_nil := hwhole
  whole c hc := hdigits c (List.mem_append_left _ hc)
  fraction c hc := hdigits c (List.mem_append_right _ hc)
  value_eq := by rw [value_whole_fraction, hvalue, hexponent, value_append_zeros]

section
variable (negative : Bool) {digits : List Char} (hdigits : ∀ c ∈ digits, c.isDigit)
include hdigits

theorem isDigit_of_mem_append_zeros (before after : Nat) :
    ∀ c ∈ List.replicate before '0' ++ (digits ++ List.replicate after '0'), c.isDigit := by
  have hzero : ∀ n, ∀ c ∈ List.replicate n '0', c.isDigit := fun n c hc => by
    rw [List.eq_of_mem_replicate hc]
    rfl
  rw [List.forall_mem_append, List.forall_mem_append]
  exact ⟨hzero before, hdigits, hzero after⟩

/-- zeros between the point and the digits -/
theorem placed_zeros_before (k : Nat) :
    Placed ⟨negative, ['0'], List.replicate k '0' ++ digits, none⟩ negative
      (digitsValue digits * 10 ^ (-(k + digits.length : ℤ))) := by
  have hall : ['0'] ++ (List.replicate k '0' ++ digits) = List.replicate (k + 1) '0' ++ digits :=
    rfl
  refine placed_of_parts (k := 0) (List.cons_ne_nil _ _) ?_ ?_ ?_
  · have hmem := isDigit_of_mem_append_zeros hdigits (k + 1) 0
    rwa [List.replicate_zero, List.append_nil, ← hall] at hmem
  · rw [hall, digitsValue_zeros_append, List.replicate_zero, List.append_nil]
  · rw [List.length_append, List.length_replicate, Option.getD_none]
    omega

/-- the point among the digits -/
theorem placed_split (hne : digits ≠ []) {n : Nat} (hn : 0 < n) (exponent : Option ℤ) :
    Placed ⟨negative, digits.take n, digits.drop n, exponent⟩ negative
      (digitsValue digits * 10 ^ (exponent.getD 0 - (digits.length - n : Nat))) := by
  refine placed_of_parts (k := 0) ?_ ?_ ?_ ?_
  · rw [Ne, List.take_eq_nil_iff]
    simp [hne, hn.ne']
  · rwa [List.take_append_drop]
  · rw [List.take_append_drop, List.replicate_zero, List.append_nil]
  · rw [List.length_drop]
    omega

/-- zeros between the digits and the point, and after it -/
theorem placed_zeros_after (hne : digits ≠ []) (k j : Nat) :
    Placed ⟨negative, digits ++ List.replicate k '0', List.replicate j '0', none⟩ negative
      (digitsValue digits * 10 ^ (k : ℤ)) := by
  have hall : digits ++ List.replicate k '0' ++ List.replicate j '0' =
      digits ++ List.replicate (k + j) '0' := by
    rw [List.append_assoc, List.replicate_append_replicate]
  refine placed_of_parts (k := k + j) (List.append_ne_nil_of_left_ne_nil hne _) ?_ ?_ ?_
  · have hmem := isDigit_of_mem_append_zeros hdigits 0 (k + j)
    rwa [List.replicate_zero, List.nil_append, ← hall] at hmem
  · rw [hall]
  · rw [List.length_replicate, Option.getD_none]
    omega

end

theorem placed_place (l : Layout) (negative : Bool) {digits : List Char} (hne : digits ≠ [])
    (hdigits : ∀ c ∈ digits, c.isDigit) (e : ℤ) :
    Placed (l.place negative digits e) negative
      (digitsValue digits * 10 ^ (e + 1 - digits.length)) := by
  have hlen := List.length_pos_iff.2 hne
  rw [place]
  split_ifs with hpositional hsmall
  · have hfraction :
        ¬ (l.point && (List.replicate (-e - 1).toNat '0' ++ digits).isEmpty) = true := by
      simp [hne]
    have hexponent : e + 1 - digits.length = -((-e - 1).toNat + digits.length : ℤ) := by omega
    dsimp only
    rw [if_neg hfraction, hexponent]
    exact placed_zeros_before negative hdigits _
  · dsimp only
    rcases Nat.lt_or_ge (e.toNat + 1) digits.length with hlong | hshort
    · have hfraction : ¬ (l.point && (digits.drop (e.toNat + 1)).isEmpty) = true := by
        simp [List.drop_eq_nil_iff, hlong]
      have hexponent : e + 1 - digits.length =
          (none : Option ℤ).getD 0 - (digits.length - (e.toNat + 1) : Nat) := by
        rw [Option.getD_none]
        omega
      rw [if_neg hfraction, Nat.sub_eq_zero_of_le hlong.le, List.replicate_zero, List.append_nil,
        hexponent]
      exact placed_split negative hdigits hne e.toNat.succ_pos none
    · -- there is a zero after the point if something is to be there
      have hfraction : (if (l.point && (digits.drop (e.toNat + 1)).isEmpty) = true then ['0']
          else digits.drop (e.toNat + 1)) = List.replicate (if l.point then 1 else 0) '0' := by
        rw [List.drop_eq_nil_of_le hshort]
        cases l.point <;> rfl
      have hexponent : e + 1 - digits.length = (e.toNat + 1 - digits.length : Nat) := by omega
      rw [hfraction, List.take_of_length_le hshort, hexponent]
      exact placed_zeros_after negative hdigits hne _ _
  · have hexponent : e + 1 - digits.length = (some e).getD 0 - (digits.length - 1 : Nat) := by
      rw [Option.getD_some]
      omega
    rw [hexponent]
    exact placed_split negative hdigits hne Nat.one_pos (some e)

/-- the numeral of a double is that of its shortest decimal -/
theorem placed_numeral (l : Layout) {x : Float} (hpos : 0 < Double.rank x) :
    Placed (l.numeral x) (Double.isNegative x)
      ((Double.shortest l.tieUp (Double.rank x)).1 *
        10 ^ (Double.shortest l.tieUp (Double.rank x)).2) := by
  obtain ⟨hdigits, hvalue, heq⟩ := significant_spec (Double.shortest_pos l.tieUp hpos)
    (Double.shortest l.tieUp (Double.rank x)).2
  have hne : (significant (Double.shortest l.tieUp (Double.rank x)).1
      (Double.shortest l.tieUp (Double.rank x)).2).1 ≠ [] := by
    intro hnil
    rw [hnil] at hvalue
    exact lt_irrefl _ hvalue
  rw [numeral, if_neg hpos.ne', ← heq]
  exact placed_place l _ hne hdigits _

theorem placed_numeral_zero (l : Layout) {x : Float} (hzero : Double.rank x = 0) :
    Placed (l.numeral x) (Double.isNegative x) 0 := by
  have hne : ['0'] ≠ [] := List.cons_ne_nil _ _
  have hdigit : ∀ c ∈ ['0'], c.isDigit := fun c hc => by rw [List.mem_singleton.1 hc]; rfl
  have hplaced := placed_place l (Double.isNegative x) hne hdigit 0
  rw [show digitsValue ['0'] = 0 from rfl, Nat.cast_zero, zero_mul] at hplaced
  rwa [numeral, if_pos hzero]

end Layout

/-! ### reading a decimal -/

namespace Double

/-- the powers of ten that bound what is read lie outside of the doubles -/
theorem quartersPerOne_bounds : quartersPerOne < 10 ^ 331 ∧
    (4 * 2 ^ 53) * 2 ^ 2045 ≤ 10 ^ 310 * quartersPerOne := by decide +kernel

/-- the intervals of the finite ranks end below `10^310` -/
theorem interval_lt_top {rank : Nat} (hpos : 0 < rank) (hfinite : rank < infinityRank) :
    (interval rank).2 < 10 ^ 310 * quartersPerOne := by
  obtain ⟨m, b, low, hparts⟩ := exists_parts hpos
  have hb : b ≤ 2045 := by
    have hrank := hparts.rank_eq
    have hge := hparts.ge
    have htop : infinityRank = 2047 * 2 ^ 52 := rfl
    rw [htop] at hfinite
    omega
  have hgrow : ∀ c, b ≤ c → (4 * 2 ^ 53) * 2 ^ b ≤ (4 * 2 ^ 53) * 2 ^ c := fun c hc =>
    Nat.mul_le_mul_left _ (Nat.pow_le_pow_right Nat.two_pos hc)
  have hm := hparts.lt
  rw [hparts.interval_eq]
  calc (4 * m + 2) * 2 ^ b < (4 * 2 ^ 53) * 2 ^ b :=
        Nat.mul_lt_mul_of_pos_right (by omega) (Nat.two_pow_pos b)
    _ ≤ (4 * 2 ^ 53) * 2 ^ 2045 := hgrow 2045 hb
    _ ≤ 10 ^ 310 * quartersPerOne := quartersPerOne_bounds.2

end Double

namespace Decimal

open Double

/-- a decimal has its first digit where its length says -/
theorem value_bounds {d : Decimal} (hdigits : d.digits ≠ 0) :
    (10 : ℚ) ^ ((digitChars d.digits).length + d.exponent - 1) ≤ d.value ∧
      d.value < 10 ^ ((digitChars d.digits).length + d.exponent) := by
  have hscale : (0 : ℚ) < 10 ^ d.exponent := by positivity
  have hlow := ten_pow_length_le (Nat.pos_of_ne_zero hdigits)
  have hhigh := lt_ten_pow_length d.digits
  have hlen := length_digitChars_pos d.digits
  obtain ⟨k, hk⟩ := Nat.exists_eq_succ_of_ne_zero hlen.ne'
  rw [hk] at hlow hhigh ⊢
  rw [value]
  constructor
  · rw [show ((k.succ : Nat) : ℤ) + d.exponent - 1 = k + d.exponent by push_cast; ring,
      zpow_add₀ (by norm_num), zpow_natCast]
    refine mul_le_mul_of_nonneg_right ?_ hscale.le
    exact_mod_cast hlow
  · rw [zpow_add₀ (by norm_num), zpow_natCast]
    refine mul_lt_mul_of_pos_right ?_ hscale
    exact_mod_cast hhigh

section
variable {d : Decimal} {rank : Nat} (hpos : 0 < rank)
  (h : RoundsTo rank (d.value * quartersPerOne))
include hpos h

theorem digits_ne_zero : d.digits ≠ 0 := by
  intro hzero
  have hvalue := h.pos hpos
  rw [value, hzero, Nat.cast_zero, zero_mul, zero_mul] at hvalue
  exact lt_irrefl _ hvalue

/-- a decimal in the interval of a rank is not below the powers of ten that are computed -/
theorem le_length_add_exponent : -330 ≤ ((digitChars d.digits).length : ℤ) + d.exponent := by
  by_contra hlt
  have hquarters : (0 : ℚ) < quartersPerOne := Nat.cast_pos.2 quartersPerOne_pos
  have hpow : (10 : ℚ) ^ (((digitChars d.digits).length : ℤ) + d.exponent) ≤ 10 ^ (-331 : ℤ) :=
    zpow_le_zpow_right₀ (by norm_num) (by omega)
  have hone : (1 : ℚ) ≤ d.value * quartersPerOne :=
    (Nat.one_le_cast.2 (interval_pos hpos)).trans h.bounds.1
  have hless : d.value * quartersPerOne < 10 ^ (-331 : ℤ) * 10 ^ 331 :=
    mul_lt_mul'' ((value_bounds (digits_ne_zero hpos h)).2.trans_le hpow)
      (by exact_mod_cast quartersPerOne_bounds.1)
      (le_of_lt (pos_of_mul_pos_left (zero_lt_one.trans_le hone) hquarters.le)) hquarters.le
  norm_num at hless
  linarith

/-- a decimal in the interval of a finite rank is not above the powers of ten that are computed -/
theorem length_add_exponent_le (hfinite : rank < infinityRank) :
    ((digitChars d.digits).length : ℤ) + d.exponent ≤ 310 := by
  by_contra hlt
  have hquarters : (0 : ℚ) < quartersPerOne := Nat.cast_pos.2 quartersPerOne_pos
  have hpow : (10 : ℚ) ^ (310 : ℤ) ≤ 10 ^ (((digitChars d.digits).length : ℤ) + d.exponent - 1) :=
    zpow_le_zpow_right₀ (by norm_num) (by omega)
  have hmul := mul_le_mul_of_nonneg_right
    (hpow.trans (value_bounds (digits_ne_zero hpos h)).1) hquarters.le
  have hend : ((interval rank).2 : ℚ) < 10 ^ 310 * quartersPerOne := by
    exact_mod_cast interval_lt_top hpos hfinite
  rw [show (10 : ℚ) ^ (310 : ℤ) = 10 ^ 310 from zpow_natCast 10 310] at hmul
  exact absurd (hmul.trans h.bounds.2) (not_le.2 hend)

/-- a decimal in the interval of a finite rank reads as that rank -/
theorem nearest_eq (hfinite : rank < infinityRank) : d.nearest = ofRank d.negative rank := by
  have hsmall : ¬ (d.digits = 0 ∨ ((digitChars d.digits).length : ℤ) + d.exponent < -330) :=
    not_or.2 ⟨digits_ne_zero hpos h, not_lt.2 (le_length_add_exponent hpos h)⟩
  have hlarge := not_lt.2 (length_add_exponent_le hpos h hfinite)
  have hquotient : ((4 * (d.digits * 10 ^ d.exponent.toNat * unitsPerOne) : Nat) : ℚ) /
      ((10 ^ (-d.exponent).toNat : Nat) : ℚ) = d.value * quartersPerOne := by
    rw [value, ten_zpow, quartersPerOne]
    push_cast
    ring
  have hrank : rankOf (d.digits * 10 ^ d.exponent.toNat * unitsPerOne) (10 ^ (-d.exponent).toNat) =
      rank := by
    refine rankOf_eq hpos hfinite (Nat.pow_pos (by decide)) ?_
    rw [← hquotient] at h
    exact_mod_cast h
  simp only [nearest, if_neg hsmall, if_neg hlarge, Nat.pow_eq, hrank]

end

theorem nearest_eq_zero {d : Decimal} (h : d.value = 0) : d.nearest = ofRank d.negative 0 := by
  have hdigits : d.digits = 0 := by
    have hscale : (10 : ℚ) ^ d.exponent ≠ 0 := by positivity
    rw [value, mul_eq_zero, or_iff_left hscale, Nat.cast_eq_zero] at h
    exact h
  rw [nearest, if_pos (Or.inl hdigits)]

end Decimal

/-! ### the text of a numeral -/

namespace Numeral

theorem exponentOf_exponentChars (plus : Bool) (e : ℤ) :
    ExponentOf (exponentChars plus e) (some e) := by
  have hdigits : ∀ c ∈ digitChars e.natAbs, c.isDigit := fun c => isDigit_of_mem_digitChars
  have hvalue := digitsValue_digitChars e.natAbs
  rw [exponentChars]
  split_ifs with hneg hplus
  · have hpower := ExponentOf.power (Or.inl rfl) .minus (digitChars_ne_nil _) hdigits
    rwa [if_pos rfl, hvalue, show -(e.natAbs : ℤ) = e by omega] at hpower
  · have hpower := ExponentOf.power (Or.inl rfl) .plus (digitChars_ne_nil _) hdigits
    rwa [if_neg Bool.false_ne_true, hvalue, show (e.natAbs : ℤ) = e by omega] at hpower
  · have hpower := ExponentOf.power (Or.inl rfl) .absent (digitChars_ne_nil _) hdigits
    rwa [if_neg Bool.false_ne_true, hvalue, show (e.natAbs : ℤ) = e by omega] at hpower

theorem spells_chars (plus : Bool) {n : Numeral} (hne : n.whole ≠ [])
    (hwhole : ∀ c ∈ n.whole, c.isDigit) (hfraction : ∀ c ∈ n.fraction, c.isDigit) :
    Spells (n.chars plus) n := by
  obtain ⟨negative, whole, fraction, exponent⟩ := n
  have hsign : SignOf (if negative then ['-'] else []) negative := by
    cases negative with
    | true => exact .minus
    | false => exact .absent
  have hdotted : FractionOf (if fraction.isEmpty then [] else '.' :: fraction) fraction := by
    cases fraction with
    | nil => exact .absent
    | cons => exact .point hfraction
  rw [chars, List.append_assoc, List.append_assoc]
  cases exponent with
  | none => exact .parts hsign hwhole hdotted (Or.inl hne) .absent
  | some e => exact .parts hsign hwhole hdotted (Or.inl hne) (exponentOf_exponentChars plus e)

end Numeral

/-! ### the text of a double -/

namespace Layout

/-- the numeral of a finite double has digits around its point, and the double is nearest to it -/
theorem exists_placed (l : Layout) {x : Float} (hfinite : Double.isFinite x) :
    ∃ value, Placed (l.numeral x) (Double.isNegative x) value ∧
      (l.numeral x).decimal.nearest = x := by
  rcases Nat.eq_zero_or_pos (Double.rank x) with hzero | hpos
  · have hplaced := l.placed_numeral_zero hzero
    refine ⟨0, hplaced, ?_⟩
    rw [Decimal.nearest_eq_zero hplaced.value_eq, ← hzero]
    exact (congrArg (Double.ofRank · _) hplaced.negative_eq).trans (Double.ofRank_rank x)
  · have hplaced := l.placed_numeral hpos
    refine ⟨_, hplaced, ?_⟩
    have hround := Double.shortest_roundsTo l.tieUp hpos
    rw [← hplaced.value_eq] at hround
    rw [Decimal.nearest_eq hpos hround (of_decide_eq_true hfinite)]
    exact (congrArg (Double.ofRank · _) hplaced.negative_eq).trans (Double.ofRank_rank x)

/-- The numeral of a finite double, in any layout, stands for the double. -/
theorem double?_numeral (l : Layout) {x : Float} (hfinite : Double.isFinite x) :
    (l.numeral x).double? = some x := by
  obtain ⟨value, -, hnearest⟩ := l.exists_placed hfinite
  rw [Numeral.double?, hnearest, Option.filter_some, if_pos hfinite]

end Layout

/-- The text of a finite double, in any layout, reads as the double. -/
theorem readNumber?_chars (l : Layout) {x : Float} (hfinite : Double.isFinite x) :
    readNumber? (l.chars x) = some x := by
  obtain ⟨value, hplaced, -⟩ := l.exists_placed hfinite
  have hspells := Numeral.spells_chars l.plus hplaced.whole_ne_nil hplaced.whole hplaced.fraction
  rw [readNumber?, Layout.chars, if_pos hfinite, hspells.read?_eq, Option.bind_some,
    l.double?_numeral hfinite]

end LinearProgram
