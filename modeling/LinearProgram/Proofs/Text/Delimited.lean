import Mathlib.Data.List.Infix
import LinearProgram.Proofs.Decimal.Digits
import LinearProgram.Proofs.Decimal.Numeral
import LinearProgram.Solver.Log

/-!
# Parts that are read off a text

A part at the front of a text is told from what stands behind it if the text goes on with a
character that is none of the part, or if no part is the start of another one.  Items between
brackets are told apart if each of them is, up to the comma or the bracket behind it.

* `toString_append_inj`   a number;
* `eq_of_text_append`     a word out of a table;
* `Delimited.list`        items between brackets.
-/

namespace LinearProgram

/-! ### numbers -/

/-- characters of one kind, up to one of another kind -/
theorem append_inj_of_all {p : Char → Bool} {a b x y : List Char} (ha : ∀ c ∈ a, p c)
    (hb : ∀ c ∈ b, p c) (hx : ∀ c, x.head? = some c → p c = false)
    (hy : ∀ c, y.head? = some c → p c = false) (h : a ++ x = b ++ y) : a = b ∧ x = y := by
  have hspan : (a ++ x).span p = (b ++ y).span p := congrArg (List.span p) h
  rw [Numeral.span_append ha hx, Numeral.span_append hb hy] at hspan
  exact Prod.mk.inj hspan

theorem toList_toString (n : Nat) : (toString n).toList = digitChars n := String.toList_ofList

/-- a number before a word that does not start with a digit -/
theorem toString_append_inj {m n : Nat} (word : String) {c : Char} {rest : List Char} {x y : String}
    (hword : word.toList = c :: rest) (hc : c.isDigit = false)
    (h : toString m ++ (word ++ x) = toString n ++ (word ++ y)) : m = n ∧ x = y := by
  have hend : ∀ z : String, ∀ d, (word ++ z).toList.head? = some d → d.isDigit = false := by
    intro z d hd
    rw [String.toList_append, hword] at hd
    cases hd
    exact hc
  have hchars := congrArg String.toList h
  rw [String.toList_append, toList_toString, String.toList_append (s := toString n),
    toList_toString] at hchars
  obtain ⟨hdigits, hrest⟩ := append_inj_of_all (fun _ => isDigit_of_mem_digitChars)
    (fun _ => isDigit_of_mem_digitChars) (hend x) (hend y) hchars
  have hnumber : m = n := by rw [← digitsValue_digitChars m, hdigits, digitsValue_digitChars]
  exact ⟨hnumber, (String.append_right_inj word).1 (String.toList_inj.1 hrest)⟩

/-! ### words out of a table -/

/-- a word of a table in which none is the start of another one -/
theorem eq_of_text_append {κ : Type} {all : List κ} (text : κ → String) (hall : ∀ k, k ∈ all)
    (hfree : ∀ k ∈ all, ∀ k' ∈ all, (text k).toList <+: (text k').toList → k = k') {k k' : κ}
    {x y : String} (h : text k ++ x = text k' ++ y) : k = k' ∧ x = y := by
  have hk : (text k).toList <+: (text k ++ x).toList := by
    rw [String.toList_append]
    exact List.prefix_append _ _
  have hk' : (text k').toList <+: (text k ++ x).toList := by
    rw [h, String.toList_append]
    exact List.prefix_append _ _
  -- of two starts of one text, one is the start of the other
  obtain rfl : k = k' := by
    rcases List.prefix_or_prefix_of_prefix hk hk' with hle | hle
    · exact hfree k (hall k) k' (hall k') hle
    · exact (hfree k' (hall k') k (hall k) hle).symm
  exact ⟨rfl, (String.append_right_inj _).1 h⟩

/-! ### items between brackets -/

section
variable {α : Type} {R : List Char → α → Prop}

/-- a comma or a closing bracket stands in front -/
def Closes (text : List Char) : Prop := ∃ c rest, text = c :: rest ∧ (c = ',' ∨ c = ']')

/-- Texts of values that are told from what stands behind them, and from the end of a list. -/
structure Delimited (R : List Char → α → Prop) : Prop where
  head_ne {text : List Char} {a : α} : R text a → ∃ c rest, text = c :: rest ∧ c ≠ ']'
  append_inj {text text' x y : List Char} {a b : α} : R text a → R text' b → Closes x → Closes y →
    text ++ x = text' ++ y → a = b ∧ x = y

/-- what stands behind the first item of a list -/
def afterItem (rest : List Char) : List (List Char) → List Char
  | [] => ']' :: rest
  | item :: items => ',' :: ' ' :: (item ++ afterItem rest items)

theorem closes_afterItem (rest : List Char) (items : List (List Char)) :
    Closes (afterItem rest items) := by
  cases items with
  | nil => exact ⟨']', _, rfl, Or.inr rfl⟩
  | cons => exact ⟨',', _, rfl, Or.inl rfl⟩

/-- items between brackets, one by one -/
def bracketedChars (rest : List Char) : List (List Char) → List Char
  | [] => '[' :: ']' :: rest
  | item :: items => '[' :: (item ++ afterItem rest items)

theorem intercalate_append (rest item : List Char) (items : List (List Char)) :
    [',', ' '].intercalate (item :: items) ++ ']' :: rest = item ++ afterItem rest items := by
  induction items generalizing item with
  | nil => rw [List.intercalate_singleton, afterItem]
  | cons next items ih =>
    rw [List.intercalate_cons_cons, List.append_assoc, List.append_assoc, ih, afterItem]
    rfl

theorem toList_bracketed (items : List String) (rest : List Char) :
    (bracketed items).toList ++ rest = bracketedChars rest (items.map String.toList) := by
  have hopen : "[".toList = ['['] := rfl
  have hclose : "]".toList = [']'] := rfl
  have hcomma : ", ".toList = [',', ' '] := rfl
  rw [bracketed, String.toList_append, String.toList_append, String.toList_intercalate, hopen,
    hclose, hcomma, List.append_assoc, List.append_assoc]
  cases items with
  | nil => rfl
  | cons item items => exact congrArg ('[' :: ·) (intercalate_append rest _ _)

/-- a list of values, each as one of the items -/
def ShowsList (R : List Char → α → Prop) (text : List Char) (l : List α) : Prop :=
  ∃ items : List String, List.Forall₂ (fun item a => R item.toList a) items l ∧
    text = (bracketed items).toList

variable {items items' : List String} {l l' : List α} {x y : List Char}

/-- the items behind the first one, by induction on those of one text -/
theorem Delimited.afterItem_inj (hR : Delimited R)
    (h : List.Forall₂ (fun item a => R item.toList a) items l)
    (h' : List.Forall₂ (fun item a => R item.toList a) items' l')
    (heq : afterItem x (items.map String.toList) = afterItem y (items'.map String.toList)) :
    l = l' ∧ x = y := by
  induction h generalizing items' l' with
  | nil =>
    cases h' with
    | nil => exact ⟨rfl, (List.cons.inj heq).2⟩
    | cons => exact absurd (List.cons.inj heq).1 (by decide)
  | cons hitem _ ih =>
    cases h' with
    | nil => exact absurd (List.cons.inj heq).1 (by decide)
    | cons hitem' hrest =>
      have hitems := (List.cons.inj (List.cons.inj heq).2).2
      obtain ⟨rfl, hafter⟩ := hR.append_inj hitem hitem' (closes_afterItem _ _)
        (closes_afterItem _ _) hitems
      obtain ⟨rfl, hend⟩ := ih hrest hafter
      exact ⟨rfl, hend⟩

/-- A list between brackets is told from whatever stands behind it. -/
theorem Delimited.list_append_inj (hR : Delimited R) {text text' : List Char}
    (h : ShowsList R text l) (h' : ShowsList R text' l') (heq : text ++ x = text' ++ y) :
    l = l' ∧ x = y := by
  obtain ⟨items, hitems, rfl⟩ := h
  obtain ⟨items', hitems', rfl⟩ := h'
  rw [toList_bracketed, toList_bracketed] at heq
  cases hitems with
  | nil =>
    cases hitems' with
    | nil => exact ⟨rfl, (List.cons.inj (List.cons.inj heq).2).2⟩
    | cons hitem =>
      obtain ⟨c, rest, htext, hc⟩ := hR.head_ne hitem
      rw [List.map_cons, bracketedChars, htext] at heq
      exact absurd (List.cons.inj (List.cons.inj heq).2).1.symm hc
  | cons hitem hrest =>
    cases hitems' with
    | nil =>
      obtain ⟨c, rest, htext, hc⟩ := hR.head_ne hitem
      rw [List.map_cons, bracketedChars, htext] at heq
      exact absurd (List.cons.inj (List.cons.inj heq).2).1 hc
    | cons hitem' hrest' =>
      -- with a comma in front, the items stand as if behind another one
      have hafter := congrArg (fun text => ',' :: ' ' :: text) (List.cons.inj heq).2
      exact hR.afterItem_inj (.cons hitem hrest) (.cons hitem' hrest') hafter

theorem Delimited.list (hR : Delimited R) : Delimited (ShowsList R) where
  head_ne := by
    rintro text l ⟨items, -, rfl⟩
    have htext := toList_bracketed items []
    rw [List.append_nil] at htext
    rw [htext]
    cases items with
    | nil => exact ⟨'[', _, rfl, by decide⟩
    | cons => exact ⟨'[', _, rfl, by decide⟩
  append_inj h h' _ _ heq := hR.list_append_inj h h' heq

end

end LinearProgram
