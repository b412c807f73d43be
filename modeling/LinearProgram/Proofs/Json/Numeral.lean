import LinearProgram.Json.Form
import LinearProgram.Proofs.Decimal.Layout

/-!
# Numbers in JSON

A number has digits before its point, no zero before other digits, and digits after the point if
there is one.  The text of such a numeral is read back as far as it goes, whatever stands behind
it, unless that could belong to the number.

* `Numeral.Strict`                the numerals with a text that JSON accepts;
* `Json.NumberEnds`               what may stand behind a number;
* `Json.readNumeral?_chars`       the text of a strict numeral is read back;
* `Layout.strict_numeral`         numerals of doubles are strict.
-/

namespace LinearProgram

structure Numeral.Strict (n : Numeral) : Prop where
  whole_ne_nil : n.whole ≠ []
  whole : ∀ c ∈ n.whole, c.isDigit
  fraction : ∀ c ∈ n.fraction, c.isDigit
  no_zero_before : n.whole.length = 1 ∨ n.whole.head? ≠ some '0'

namespace Json

/-- the text goes on with nothing that could belong to a number -/
def NumberEnds (rest : List Char) : Prop :=
  ∀ c, rest.head? = some c → c.isDigit = false ∧ c ≠ '.' ∧ c ≠ 'e' ∧ c ≠ 'E'

variable {rest digits whole fraction power : List Char} {exponent : Option ℤ} {n : Numeral}

theorem numberEnds_nil : NumberEnds [] := nofun

theorem NumberEnds.head_not_digit (h : NumberEnds rest) :
    ∀ c, rest.head? = some c → c.isDigit = false := fun c hc => (h c hc).1

/-! ### the parts of a number -/

theorem readDigits?_append (hne : digits ≠ []) (hdigits : ∀ c ∈ digits, c.isDigit)
    (hrest : ∀ c, rest.head? = some c → c.isDigit = false) :
    readDigits? (digits ++ rest) = some (digits, rest) := by
  rw [readDigits?, Numeral.span_digits hdigits hrest]
  exact if_neg fun hempty => hne (List.isEmpty_iff.1 hempty)

theorem readWhole?_append (hn : n.Strict)
    (hrest : ∀ c, rest.head? = some c → c.isDigit = false) :
    readWhole? (n.whole ++ rest) = some (n.whole, rest) := by
  have hgood : (decide (n.whole.length = 1) || n.whole.head? != some '0') = true := by
    simpa using hn.no_zero_before
  rw [readWhole?, readDigits?_append hn.whole_ne_nil hn.whole hrest, Option.filter_some, if_pos hgood]

theorem readFraction?_append (hdigits : ∀ c ∈ fraction, c.isDigit)
    (hrest : ∀ c, rest.head? = some c → c.isDigit = false ∧ c ≠ '.') :
    readFraction? ((if fraction.isEmpty then [] else '.' :: fraction) ++ rest) =
      some (fraction, rest) := by
  cases fraction with
  | cons c fraction =>
    exact readDigits?_append (List.cons_ne_nil _ _) hdigits fun d hd => (hrest d hd).1
  | nil =>
    cases rest with
    | nil => rfl
    | cons c rest =>
      rw [List.isEmpty_nil, if_pos rfl, List.nil_append, readFraction?]
      rintro r ⟨⟩
      exact (hrest '.' rfl).2 rfl

theorem readExponentPart?_append (hpower : Numeral.ExponentOf power exponent)
    (hrest : NumberEnds rest) : readExponentPart? (power ++ rest) = some (exponent, rest) := by
  cases hpower with
  | absent =>
    cases rest with
    | nil => rfl
    | cons c rest =>
      obtain ⟨-, -, hlower, hupper⟩ := hrest c rfl
      simp [readExponentPart?, hlower, hupper]
  | @power mark sign digits negative hmark hsign hne hdigits =>
    have hfirst : ∀ c, (digits ++ rest).head? = some c → c ≠ '-' ∧ c ≠ '+' := fun c hc => by
      rw [List.head?_append_of_ne_nil _ hne] at hc
      exact Numeral.isDigit_of_head hdigits hc
    have hmark' : (decide (mark = 'e') || decide (mark = 'E')) = true := by simpa using hmark
    rw [List.cons_append, List.append_assoc, readExponentPart?, if_pos hmark',
      Numeral.takeSign_append hsign hfirst]
    dsimp only
    rw [readDigits?_append hne hdigits hrest.head_not_digit]
    rfl

/-! ### numbers -/

/-- a digit or a point does not start the power of ten, nor a point the digits -/
theorem head_power_append (hpower : Numeral.ExponentOf power exponent) (hrest : NumberEnds rest) :
    ∀ c, (power ++ rest).head? = some c → c.isDigit = false ∧ c ≠ '.' := by
  intro c hc
  cases hpower with
  | absent => exact ⟨(hrest c hc).1, (hrest c hc).2.1⟩
  | power hmark =>
    cases hc
    rcases hmark with rfl | rfl <;> decide

theorem head_dotted_append (fraction : List Char)
    (hrest : ∀ c, rest.head? = some c → c.isDigit = false ∧ c ≠ '.') :
    ∀ c, ((if fraction.isEmpty then [] else '.' :: fraction) ++ rest).head? = some c →
      c.isDigit = false := by
  intro c hc
  cases fraction with
  | nil => exact (hrest c hc).1
  | cons d fraction =>
    cases hc
    rfl

theorem readUnsigned?_append (hn : n.Strict) (hpower : Numeral.ExponentOf power n.exponent)
    (hrest : NumberEnds rest) :
    readUnsigned? n.negative (n.whole ++
      ((if n.fraction.isEmpty then [] else '.' :: n.fraction) ++ (power ++ rest))) =
      some (n, rest) := by
  have hafter := head_power_append hpower hrest
  rw [readUnsigned?, readWhole?_append hn (head_dotted_append n.fraction hafter), Option.bind_some]
  dsimp only
  rw [readFraction?_append hn.fraction hafter, Option.bind_some]
  dsimp only
  rw [readExponentPart?_append hpower hrest]
  rfl

theorem readNumeral?_chars (plus : Bool) (hn : n.Strict) (hrest : NumberEnds rest) :
    readNumeral? (n.chars plus ++ rest) = some (n, rest) := by
  obtain ⟨power, hpower, hchars⟩ : ∃ power, Numeral.ExponentOf power n.exponent ∧
      n.chars plus = (if n.negative then ['-'] else []) ++ (n.whole ++
        ((if n.fraction.isEmpty then [] else '.' :: n.fraction) ++ power)) := by
    rw [Numeral.chars, List.append_assoc, List.append_assoc]
    cases n.exponent with
    | none => exact ⟨_, .absent, rfl⟩
    | some e => exact ⟨_, Numeral.exponentOf_exponentChars plus e, rfl⟩
  have hunsigned := readUnsigned?_append hn hpower hrest
  rw [hchars, List.append_assoc, List.append_assoc, List.append_assoc]
  cases hneg : n.negative with
  | true =>
    rw [hneg] at hunsigned
    exact hunsigned
  | false =>
    rw [hneg] at hunsigned
    rw [if_neg Bool.false_ne_true, List.nil_append, ← hunsigned]
    -- the first digit is no minus
    obtain ⟨c, whole, hwhole⟩ := List.exists_cons_of_ne_nil hn.whole_ne_nil
    have hminus := (Numeral.isDigit_of_head hn.whole (by rw [hwhole]; rfl : _ = some c)).1
    rw [hwhole, List.cons_append, readNumeral?]
    rintro r ⟨⟩
    exact hminus rfl

/-- the first character of a number -/
theorem head_chars (plus : Bool) (hn : n.Strict) :
    ∃ c text, n.chars plus = c :: text ∧ (c = '-' ∨ c.isDigit) := by
  obtain ⟨c, whole, hwhole⟩ := List.exists_cons_of_ne_nil hn.whole_ne_nil
  have hdigit := hn.whole c (by rw [hwhole]; exact List.mem_cons_self)
  rw [Numeral.chars, hwhole]
  cases n.negative with
  | true => exact ⟨'-', _, rfl, Or.inl rfl⟩
  | false => exact ⟨c, _, rfl, Or.inr hdigit⟩

end Json

/-! ### numerals of numbers -/

theorem head?_digitChars {k : Nat} (hk : 0 < k) : (digitChars k).head? ≠ some '0' := by
  have hsmall : ∀ d < 10, 0 < d → Nat.digitChar d ≠ '0' := by decide
  induction k using Nat.strong_induction_on with
  | _ k ih =>
    rcases Nat.lt_or_ge k 10 with hlt | hge
    · rw [digitChars, Nat.toDigits_of_lt_base hlt]
      exact fun h => hsmall k hlt hk (Option.some.inj h)
    · rw [digitChars, Nat.toDigits_of_base_le (by decide) hge,
        List.head?_append_of_ne_nil _ Nat.toDigits_ne_nil]
      exact ih (k / 10) (by omega) (by omega)

/-- a count is strict -/
theorem strict_digitChars (k : Nat) : (⟨false, digitChars k, [], none⟩ : Numeral).Strict where
  whole_ne_nil := digitChars_ne_nil k
  whole _ := isDigit_of_mem_digitChars
  fraction := nofun
  no_zero_before := by
    rcases Nat.eq_zero_or_pos k with rfl | hpos
    · exact Or.inl rfl
    · exact Or.inr (head?_digitChars hpos)

namespace Layout

/-- the digits that are kept do not start with a zero -/
theorem head?_significant {k : Nat} (hk : 0 < k) (exponent : ℤ) :
    (significant k exponent).1.head? ≠ some '0' := by
  have hkept : (significant k exponent).1 = (digitChars k).rdropWhile (· == '0') := rfl
  rw [hkept]
  cases hcase : (digitChars k).rdropWhile (· == '0') with
  | nil => exact nofun
  | cons c kept =>
    obtain ⟨zeros, hzeros⟩ := List.rdropWhile_prefix (· == '0') (l := digitChars k)
    rw [hcase] at hzeros
    have hhead := head?_digitChars hk
    rwa [← hzeros] at hhead

/-- nor does what is placed before the point -/
theorem whole_place (l : Layout) (negative : Bool) {digits : List Char} (hne : digits ≠ [])
    (hhead : digits.head? ≠ some '0') (e : ℤ) :
    (l.place negative digits e).whole.length = 1 ∨
      (l.place negative digits e).whole.head? ≠ some '0' := by
  obtain ⟨c, rest, rfl⟩ := List.exists_cons_of_ne_nil hne
  rw [place]
  split_ifs
  · exact Or.inl rfl
  · exact Or.inr hhead
  · exact Or.inl rfl

theorem strict_numeral (l : Layout) {x : Float} (hfinite : Double.isFinite x) :
    (l.numeral x).Strict := by
  obtain ⟨value, hplaced, -⟩ := l.exists_placed hfinite
  refine ⟨hplaced.whole_ne_nil, hplaced.whole, hplaced.fraction, ?_⟩
  rw [numeral]
  split_ifs with hzero
  · rw [place]
    split_ifs <;> exact Or.inl rfl
  · have hpos := Double.shortest_pos l.tieUp (Nat.pos_of_ne_zero hzero)
    have hne : (significant (Double.shortest l.tieUp (Double.rank x)).1
        (Double.shortest l.tieUp (Double.rank x)).2).1 ≠ [] := by
      intro hnil
      have hvalue := (significant_spec hpos (Double.shortest l.tieUp (Double.rank x)).2).2.1
      rw [hnil] at hvalue
      exact lt_irrefl _ hvalue
    exact l.whole_place _ hne (head?_significant hpos _) _

end Layout

end LinearProgram
