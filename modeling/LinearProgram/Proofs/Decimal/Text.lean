import LinearProgram.Proofs.Decimal.Layout
import LinearProgram.Proofs.Double.Order
import LinearProgram.Proofs.Text.Delimited

/-!
# What the text of a double tells

The text of a finite double is a number that reads as the double, wherever its point stands; there
are three more doubles, each of which has a name.  So a text is that of one double at most, and a
list of such texts is that of one list.

* `Shows`                   the texts of a double;
* `Shows.unique`            a text has one double;
* `Layout.text_injective`   no layout writes two doubles alike;
* `ShowsGrid`               rows of doubles, and `ShowsGrid.unique`.
-/

namespace LinearProgram

/-- The text is a number that reads as the double, or the name of a double that is no number. -/
def Shows (text : List Char) (x : Float) : Prop :=
  if Double.isFinite x then readNumber? text = some x else text = nonFinite x

variable {text : List Char} {x y : Float}

theorem Layout.shows_text (l : Layout) (x : Float) : Shows (l.text x).toList x := by
  rw [Layout.text, String.toList_ofList]
  by_cases hfinite : Double.isFinite x
  · rw [Shows, if_pos hfinite]
    exact readNumber?_chars l hfinite
  · rw [Shows, if_neg hfinite, Layout.chars, if_neg hfinite]

/-! ### the doubles that are no numbers -/

/-- the name, the sign and the rank of each of them -/
def nonFinites : List (List Char × Bool × Nat) :=
  [("NaN".toList, false, Double.infinityRank + 2 ^ 51), ("inf".toList, false, Double.infinityRank),
    ("-inf".toList, true, Double.infinityRank)]

theorem exists_nonFinite (h : ¬ Double.isFinite x) :
    ∃ entry ∈ nonFinites, nonFinite x = entry.1 ∧ x = Double.ofRank entry.2.1 entry.2.2 := by
  have hrank := Double.rank_eq_level x
  have hsign := Double.isNegative_eq_minus x
  have hx := Double.ofRank_rank x
  have hfinite := (not_congr (Double.isFinite_iff x)).1 (Double.isFinite_eq x ▸ h)
  cases hu : Double.unpacked x with
  | zero s => exact absurd (Or.inl ⟨s, hu⟩) hfinite
  | finite s m e hm => exact absurd (Or.inr ⟨s, m, e, hm, hu⟩) hfinite
  | notANumber =>
    rw [hu] at hrank hsign
    refine ⟨_, List.mem_cons_self, ?_, ?_⟩
    · rw [nonFinite, Double.isNaN, hrank]
      rfl
    · rw [← hx, hrank, hsign]
      rfl
  | infinity s =>
    rw [hu] at hrank hsign
    have hnan : Double.isNaN x = false := by
      rw [Double.isNaN, hrank]
      rfl
    rw [nonFinite, hnan, hsign, ← hx, hrank, hsign]
    cases s with
    | positive => exact ⟨_, List.mem_cons_of_mem _ List.mem_cons_self, rfl, rfl⟩
    | negative =>
      exact ⟨_, List.mem_cons_of_mem _ (List.mem_cons_of_mem _ List.mem_cons_self), rfl, rfl⟩

theorem readNumber?_name : ∀ entry ∈ nonFinites, readNumber? entry.1 = none := by
  simp only [nonFinites, List.forall_mem_cons]
  exact ⟨rfl, rfl, rfl, nofun⟩

/-! ### texts of doubles -/

theorem Shows.unique (hx : Shows text x) (hy : Shows text y) : x = y := by
  rw [Shows] at hx hy
  split at hx
  next hfinite =>
    split at hy
    next => exact Option.some.inj (hx.symm.trans hy)
    next hname =>
      obtain ⟨entry, hentry, hnonFinite, -⟩ := exists_nonFinite hname
      rw [hy, hnonFinite, readNumber?_name entry hentry] at hx
      cases hx
  next hname =>
    obtain ⟨entry, hentry, hnonFinite, rfl⟩ := exists_nonFinite hname
    split at hy
    next =>
      rw [hx, hnonFinite, readNumber?_name entry hentry] at hy
      cases hy
    next hname' =>
      obtain ⟨entry', hentry', hnonFinite', rfl⟩ := exists_nonFinite hname'
      have hnodup : (nonFinites.map Prod.fst).Nodup := by decide
      have hnames : entry.1 = entry'.1 := by rw [← hnonFinite, ← hx, hy, hnonFinite']
      rw [List.inj_on_of_nodup_map hnodup hentry hentry' hnames]

/-- No layout writes two doubles alike. -/
theorem Layout.text_injective (l : Layout) : Function.Injective l.text := by
  intro x y h
  exact (l.shows_text x).unique (h ▸ l.shows_text y)

/-- neither a comma nor a bracket stands in the text of a double -/
theorem Shows.ends (h : Shows text x) : text ≠ [] ∧ ∀ c ∈ text, (c != ',' && c != ']') = true := by
  rw [Shows] at h
  split at h
  next =>
    obtain ⟨n, hn, -⟩ := Option.bind_eq_some_iff.1 h
    have hspells := Numeral.spells_iff.2 hn
    refine ⟨hspells.ne_nil, fun c hc => ?_⟩
    rcases hspells.digit_or_mark c hc with hdigit | hmark
    · rw [Bool.and_eq_true, bne_iff_ne, bne_iff_ne]
      constructor <;> rintro rfl <;> exact absurd hdigit (by decide)
    · simp only [Numeral.marks, List.mem_cons, List.not_mem_nil, or_false] at hmark
      rcases hmark with rfl | rfl | rfl | rfl | rfl <;> rfl
  next hname =>
    obtain ⟨entry, hentry, hnonFinite, -⟩ := exists_nonFinite hname
    rw [h, hnonFinite]
    simp only [nonFinites, List.mem_cons, List.not_mem_nil, or_false] at hentry
    rcases hentry with rfl | rfl | rfl <;> exact ⟨List.cons_ne_nil _ _, by simp⟩

theorem delimited_shows : Delimited Shows where
  head_ne := by
    intro text x h
    obtain ⟨hne, hall⟩ := h.ends
    obtain ⟨c, rest, rfl⟩ := List.exists_cons_of_ne_nil hne
    have hc := hall c List.mem_cons_self
    rw [Bool.and_eq_true, bne_iff_ne, bne_iff_ne] at hc
    exact ⟨c, rest, rfl, hc.2⟩
  append_inj := by
    intro text text' x y a b h h' hx hy heq
    have hstop : ∀ z, Closes z → ∀ c, z.head? = some c → (c != ',' && c != ']') = false := by
      rintro z ⟨d, rest, rfl, hd⟩ c hc
      cases hc
      rcases hd with rfl | rfl <;> rfl
    obtain ⟨rfl, hrest⟩ := append_inj_of_all h.ends.2 h'.ends.2 (hstop x hx) (hstop y hy) heq
    exact ⟨h.unique h', hrest⟩

/-! ### grids -/

/-- The text is a list of rows, each of them a list of texts of its entries. -/
def ShowsGrid (text : String) (rows : List (List Float)) : Prop :=
  ShowsList (ShowsList Shows) text.toList rows

/-- A text is that of one grid. -/
theorem ShowsGrid.unique {text : String} {rows rows' : List (List Float)}
    (h : ShowsGrid text rows) (h' : ShowsGrid text rows') : rows = rows' :=
  (delimited_shows.list.list_append_inj h h' rfl : _ ∧ [] = []).1

theorem showsList_map {α : Type} {R : List Char → α → Prop} {write : α → String}
    (h : ∀ a, R (write a).toList a) (l : List α) :
    ShowsList R (bracketed (l.map write)).toList l :=
  ⟨l.map write, List.forall₂_map_left_iff.2 (List.forall₂_same.2 fun a _ => h a), rfl⟩

theorem showsGrid_gridText (rows : List (List Float)) : ShowsGrid (gridText rows) rows := by
  have hrow : ∀ row : List Float,
      ShowsList Shows (bracketed (row.map Layout.logged.text)).toList row :=
    showsList_map Layout.logged.shows_text
  exact showsList_map hrow rows

end LinearProgram
