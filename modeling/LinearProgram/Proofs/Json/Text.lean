import Mathlib.Data.Char
import LinearProgram.Json.Reader

/-!
# Strings in JSON

What a string escapes is read back as the character it stands for, and no character is half of a
surrogate pair.

* `Json.readCodes?_escapeChar`   one character;
* `Json.joinCodes?_map_toNat`    the codes of characters stand for them;
* `Json.readString?_escaped`     a whole string, up to its closing quote.
-/

namespace LinearProgram

namespace Json

/-- the four digits of a control character, and its code -/
theorem hexCode?_hexDigits : ∀ n < 0x20, ∃ a b c d, hexDigits n = [a, b, c, d] ∧
    hexCode? a b c d = some n := by
  have hall : ∀ n < 0x20,
      hexDigits n = ['0', '0', Nat.digitChar (n / 16), Nat.digitChar (n % 16)] ∧
        hexCode? '0' '0' (Nat.digitChar (n / 16)) (Nat.digitChar (n % 16)) = some n := by decide
  exact fun n hn => ⟨_, _, _, _, hall n hn⟩

theorem readCodes?_escapeChar (c : Char) (rest : List Char) : readCodes? (escapeChar c ++ rest) =
    (readCodes? rest).map fun (codes, rest) => (c.toNat :: codes, rest) := by
  rw [escapeChar]
  split_ifs with hquote hback hb hf hn hr ht hcontrol
  · subst hquote
    rfl
  · subst hback
    rfl
  · subst hb
    rfl
  · subst hf
    rfl
  · subst hn
    rfl
  · subst hr
    rfl
  · subst ht
    rfl
  · obtain ⟨x, y, z, w, hdigits, hcode⟩ := hexCode?_hexDigits c.toNat hcontrol
    rw [hdigits]
    simp only [List.cons_append, List.nil_append, readCodes?, hcode]
  · rw [List.singleton_append, readCodes?]
    · rw [if_neg (by simpa [hback] using hcontrol)]
    · exact hquote
    · rintro a b d e r rfl
      exact fun _ => hback rfl
    · rintro d r rfl
      exact fun _ => hback rfl

/-- no character is half of a surrogate pair -/
theorem toNat_not_surrogate (c : Char) : c.toNat < 0xD800 ∨ 0xE000 ≤ c.toNat := by
  rcases c.valid with h | h
  · exact Or.inl h
  · exact Or.inr h.1

theorem joinCodes?_map_toNat (text : List Char) : joinCodes? (text.map Char.toNat) = some text := by
  induction text with
  | nil => rfl
  | cons c text ih =>
    have hc := toNat_not_surrogate c
    have hhigh : ¬ ((decide (0xD800 ≤ c.toNat) && decide (c.toNat < 0xDC00)) = true) := by
      simp only [Bool.and_eq_true, decide_eq_true_eq]
      omega
    have hlow : ¬ ((decide (0xDC00 ≤ c.toNat) && decide (c.toNat < 0xE000)) = true) := by
      simp only [Bool.and_eq_true, decide_eq_true_eq]
      omega
    have hlast : ¬ ((decide (0xD800 ≤ c.toNat) && decide (c.toNat < 0xE000)) = true) := by
      simp only [Bool.and_eq_true, decide_eq_true_eq]
      omega
    cases text with
    | nil => rw [List.map_singleton, joinCodes?, if_neg hlast, Char.ofNat_toNat]
    | cons d text =>
      rw [List.map_cons] at ih
      rw [List.map_cons, List.map_cons, joinCodes?, if_neg hhigh, if_neg hlow, ih,
        Char.ofNat_toNat]
      rfl

theorem readCodes?_escaped (text rest : List Char) :
    readCodes? (text.flatMap escapeChar ++ '"' :: rest) = some (text.map Char.toNat, rest) := by
  induction text with
  | nil => rfl
  | cons c text ih =>
    rw [List.flatMap_cons, List.append_assoc, readCodes?_escapeChar, ih]
    rfl

/-- a string from after its opening quote on -/
theorem readString?_escaped (text rest : List Char) :
    readString? (text.flatMap escapeChar ++ '"' :: rest) = some (some text, rest) := by
  have hcodes := readCodes?_escaped text rest
  have htext := joinCodes?_map_toNat text
  simp only [readString?, hcodes, Option.map_some, htext]

end Json

end LinearProgram
