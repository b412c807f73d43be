import Mathlib.Data.List.TakeDrop
import Mathlib.Data.List.TakeWhile
import LinearProgram.Decimal.Numeral

/-!
# The texts of numerals

The grammar of the texts that are read as numerals: an optional sign, digits with at most one point
among or around them, and an optional power of ten.

* `Numeral.Spells`       the grammar;
* `Numeral.spells_iff`   the texts of the grammar are those that are read, with the same numeral.
-/

namespace LinearProgram

namespace Numeral

/-! ### the grammar -/

/-- an optional sign, and whether it is a minus -/
inductive SignOf : List Char → Bool → Prop where
  | absent : SignOf [] false
  | plus : SignOf ['+'] false
  | minus : SignOf ['-'] true

/-- a point with the digits after it, or nothing -/
inductive FractionOf : List Char → List Char → Prop where
  | absent : FractionOf [] []
  | point {digits : List Char} (hdigits : ∀ c ∈ digits, c.isDigit) :
    FractionOf ('.' :: digits) digits

/-- a mark with a power of ten after it, or nothing -/
inductive ExponentOf : List Char → Option Int → Prop where
  | absent : ExponentOf [] none
  | power {mark : Char} {sign digits : List Char} {negative : Bool}
    (hmark : mark = 'e' ∨ mark = 'E') (hsign : SignOf sign negative) (hne : digits ≠ [])
    (hdigits : ∀ c ∈ digits, c.isDigit) :
    ExponentOf (mark :: (sign ++ digits))
      (some (if negative then -(digitsValue digits : Int) else digitsValue digits))

/-- the text spells the numeral -/
inductive Spells : List Char → Numeral → Prop where
  | parts {sign whole dotted fraction power : List Char} {negative : Bool} {exponent : Option Int}
    (hsign : SignOf sign negative) (hwhole : ∀ c ∈ whole, c.isDigit)
    (hfraction : FractionOf dotted fraction) (hne : whole ≠ [] ∨ fraction ≠ [])
    (hexponent : ExponentOf power exponent) :
    Spells (sign ++ (whole ++ (dotted ++ power))) ⟨negative, whole, fraction, exponent⟩

/-! ### signs and digits -/

variable {text rest sign whole dotted fraction power : List Char} {negative : Bool}
  {exponent : Option Int} {n : Numeral}

theorem takeSign_append (hsign : SignOf sign negative)
    (hrest : ∀ c, rest.head? = some c → c ≠ '-' ∧ c ≠ '+') :
    takeSign (sign ++ rest) = (negative, rest) := by
  cases hsign with
  | plus => rfl
  | minus => rfl
  | absent =>
    cases rest with
    | nil => rfl
    | cons c rest =>
      obtain ⟨hminus, hplus⟩ := hrest c rfl
      rw [List.nil_append, takeSign]
      · intro r h
        exact hminus (List.cons.inj h).1
      · intro r h
        exact hplus (List.cons.inj h).1

theorem exists_sign (h : takeSign text = (negative, rest)) :
    ∃ sign, SignOf sign negative ∧ text = sign ++ rest := by
  unfold takeSign at h
  split at h
  · cases h
    exact ⟨['-'], .minus, rfl⟩
  · cases h
    exact ⟨['+'], .plus, rfl⟩
  · cases h
    exact ⟨[], .absent, rfl⟩

/-- characters of one kind, up to one of another kind -/
theorem span_append {p : Char → Bool} (hwhole : ∀ c ∈ whole, p c)
    (hrest : ∀ c, rest.head? = some c → p c = false) :
    (whole ++ rest).span p = (whole, rest) := by
  have hhead : rest.takeWhile p = [] ∧ rest.dropWhile p = rest := by
    cases rest with
    | nil => exact ⟨rfl, rfl⟩
    | cons c rest =>
      have hc : ¬ p c = true := by rw [hrest c rfl]; exact Bool.false_ne_true
      exact ⟨List.takeWhile_cons_of_neg hc, List.dropWhile_cons_of_neg hc⟩
  rw [List.span_eq_takeWhile_dropWhile, List.takeWhile_append_of_pos hwhole,
    List.dropWhile_append_of_pos hwhole, hhead.1, hhead.2, List.append_nil]

theorem span_digits (hwhole : ∀ c ∈ whole, c.isDigit)
    (hrest : ∀ c, rest.head? = some c → c.isDigit = false) :
    (whole ++ rest).span Char.isDigit = (whole, rest) := span_append hwhole hrest

theorem of_span_digits (h : text.span Char.isDigit = (whole, rest)) :
    text = whole ++ rest ∧ ∀ c ∈ whole, c.isDigit := by
  rw [List.span_eq_takeWhile_dropWhile] at h
  cases h
  exact ⟨List.takeWhile_append_dropWhile.symm, fun c => List.mem_takeWhile_imp⟩

theorem isDigit_of_head (h : ∀ c ∈ whole, c.isDigit) {c : Char} (hc : whole.head? = some c) :
    c ≠ '-' ∧ c ≠ '+' := by
  have hdigit := h c (List.mem_of_mem_head? hc)
  constructor <;> rintro rfl <;> exact absurd hdigit (by decide)

/-! ### powers of ten -/

theorem readExponent?_eq (hsign : SignOf sign negative) {digits : List Char} (hne : digits ≠ [])
    (hdigits : ∀ c ∈ digits, c.isDigit) : readExponent? (sign ++ digits) =
      some (if negative then -(digitsValue digits : Int) else digitsValue digits) := by
  rw [readExponent?, takeSign_append hsign fun c => isDigit_of_head hdigits]
  have hbad : (digits.isEmpty || !digits.all Char.isDigit) = false := by
    simpa [hne] using hdigits
  simp only [hbad, Bool.false_eq_true, if_false]

theorem exists_exponent {e : Int} (h : readExponent? text = some e) {mark : Char}
    (hmark : mark = 'e' ∨ mark = 'E') : ExponentOf (mark :: text) (some e) := by
  rw [readExponent?] at h
  cases htake : takeSign text with
  | mk negative digits =>
    rw [htake] at h
    dsimp only at h
    split at h
    · cases h
    next hgood =>
      obtain ⟨sign, hsign, rfl⟩ := exists_sign htake
      cases h
      simp only [Bool.or_eq_true, List.isEmpty_iff, Bool.not_eq_true', not_or,
        Bool.not_eq_false, List.all_eq_true] at hgood
      exact .power hmark hsign hgood.1 hgood.2

/-! ### numerals -/

theorem ExponentOf.head_not_digit (h : ExponentOf power exponent) :
    ∀ c, power.head? = some c → c.isDigit = false := by
  intro c hc
  cases h with
  | absent => cases hc
  | power hmark =>
    cases hc
    rcases hmark with rfl | rfl <;> rfl

theorem head_ne_sign (power : List Char) (hwhole : ∀ c ∈ whole, c.isDigit)
    (hfraction : FractionOf dotted fraction) (hne : whole ≠ [] ∨ fraction ≠ []) :
    ∀ c, (whole ++ (dotted ++ power)).head? = some c → c ≠ '-' ∧ c ≠ '+' := by
  intro c hc
  cases whole with
  | cons d whole =>
    cases hc
    exact isDigit_of_head hwhole rfl
  | nil =>
    cases hfraction with
    | absent => simp at hne
    | point =>
      cases hc
      decide

theorem Spells.read?_eq (h : Spells text n) : read? text = some n := by
  cases h with
  | @parts sign whole dotted fraction power negative exponent hsign hwhole hfraction hne hexponent =>
  have htake := takeSign_append hsign (head_ne_sign power hwhole hfraction hne)
  have hgood : ¬ (whole.isEmpty && fraction.isEmpty) = true := by
    simpa [imp_iff_not_or] using hne
  have hpower := hexponent.head_not_digit
  cases hfraction with
  | absent =>
    rw [List.nil_append] at htake ⊢
    simp only [read?, htake, span_digits hwhole hpower]
    cases hexponent with
    | absent => exact if_neg hgood
    | power hmark hsign' hne' hdigits =>
      have hread := readExponent?_eq hsign' hne' hdigits
      rcases hmark with rfl | rfl <;>
        exact (if_neg hgood).trans (congrArg (Option.map _) hread)
  | point hdigits =>
    have hspan : (whole ++ ('.' :: fraction ++ power)).span Char.isDigit =
        (whole, '.' :: (fraction ++ power)) := span_digits hwhole (by intro c hc; cases hc; rfl)
    simp only [read?, htake, hspan, span_digits hdigits hpower]
    cases hexponent with
    | absent => exact if_neg hgood
    | power hmark hsign' hne' hdigits' =>
      have hread := readExponent?_eq hsign' hne' hdigits'
      rcases hmark with rfl | rfl <;>
        exact (if_neg hgood).trans (congrArg (Option.map _) hread)

/-- the end of a numeral, as it is read after its digits -/
theorem exponent_of_read? {whole fraction text : List Char}
    (h : (match text with
      | [] => some ⟨negative, whole, fraction, none⟩
      | mark :: rest =>
        if mark = 'e' || mark = 'E' then
          (readExponent? rest).map fun e => ⟨negative, whole, fraction, some e⟩
        else none) = some n) :
    ∃ exponent, ExponentOf text exponent ∧ n = ⟨negative, whole, fraction, exponent⟩ := by
  cases text with
  | nil =>
    cases h
    exact ⟨none, .absent, rfl⟩
  | cons mark rest =>
    dsimp only at h
    split at h
    next hmark =>
      obtain ⟨e, he, rfl⟩ := Option.map_eq_some_iff.1 h
      exact ⟨some e, exists_exponent he (by simpa using hmark), rfl⟩
    next => cases h

theorem spells_of_read? (h : read? text = some n) : Spells text n := by
  cases htake : takeSign text with
  | mk negative unsigned =>
  cases hspan : unsigned.span Char.isDigit with
  | mk whole rest =>
  simp only [read?, htake, hspan] at h
  obtain ⟨sign, hsign, rfl⟩ := exists_sign htake
  obtain ⟨rfl, hwhole⟩ := of_span_digits hspan
  split at h
  next after =>
    cases hdotted : after.span Char.isDigit with
    | mk fraction power =>
    obtain ⟨rfl, hfraction⟩ := of_span_digits hdotted
    rw [hdotted] at h
    dsimp only at h
    split at h
    · cases h
    next hne =>
    obtain ⟨exponent, hexponent, rfl⟩ := exponent_of_read? h
    exact .parts hsign hwhole (.point hfraction) (by simpa [imp_iff_not_or] using hne) hexponent
  next =>
    dsimp only at h
    split at h
    · cases h
    next hne =>
    obtain ⟨exponent, hexponent, rfl⟩ := exponent_of_read? h
    exact .parts hsign hwhole .absent (by simpa [imp_iff_not_or] using hne) hexponent

theorem spells_iff : Spells text n ↔ read? text = some n := ⟨Spells.read?_eq, spells_of_read?⟩

/-! ### the characters of a numeral -/

/-- the characters of a numeral that are no digits -/
def marks : List Char := ['+', '-', '.', 'e', 'E']

theorem SignOf.mem_marks (h : SignOf sign negative) : ∀ c ∈ sign, c ∈ marks := by
  cases h <;> simp [marks]

theorem Spells.digit_or_mark (h : Spells text n) : ∀ c ∈ text, c.isDigit ∨ c ∈ marks := by
  cases h with
  | parts hsign hwhole hfraction hne hexponent =>
    simp only [List.forall_mem_append]
    refine ⟨fun c hc => Or.inr (hsign.mem_marks c hc), fun c hc => Or.inl (hwhole c hc), ?_, ?_⟩
    · cases hfraction with
      | absent => nofun
      | point hdigits =>
        exact List.forall_mem_cons.2 ⟨by simp [marks], fun c hc => Or.inl (hdigits c hc)⟩
    · cases hexponent with
      | absent => nofun
      | power hmark hsign _ hdigits =>
        refine List.forall_mem_cons.2 ⟨Or.inr ?_, List.forall_mem_append.2
          ⟨fun c hc => Or.inr (hsign.mem_marks c hc), fun c hc => Or.inl (hdigits c hc)⟩⟩
        rcases hmark with rfl | rfl <;> simp [marks]

theorem Spells.ne_nil (h : Spells text n) : text ≠ [] := by
  rintro rfl
  exact absurd h.read?_eq nofun

end Numeral

end LinearProgram
