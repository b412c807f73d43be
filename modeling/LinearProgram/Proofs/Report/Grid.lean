import LinearProgram.Proofs.Report.Shown
import LinearProgram.Proofs.Text.Words

/-!
# When the grid of a tableau is readable

The cells of a line are padded to a width and never cut.  So a text that is too long moves the rest
of its line to the right, and already a cell of the full width leaves no blank before it: it is one
word with the cell on its left.

* `length_words_cells`       the words in a row of cells;
* `length_gridLine_eq_iff`   the lines of the usual length;
* `Readable`                 lines of one length, with a word for each column;
* `Narrow`                   columns, labels and entries for which there is room;
* `readable_iff`             the reports that are readable;
* `readable_wideRhs`         a tableau of finite entries whose report is not.
-/

namespace LinearProgram
open Double

/-! ### cells in a row -/

/-- a text that is one word -/
def OneWord (cell : List Char) : Prop := cell ≠ [] ∧ ∀ c ∈ cell, isBlank c = false

theorem OneWord.append {a b : List Char} (ha : OneWord a) (hb : OneWord b) : OneWord (a ++ b) := by
  refine ⟨List.append_ne_nil_of_left_ne_nil ha.1 b, ?_⟩
  intro c hc
  rcases List.mem_append.1 hc with hc | hc
  · exact ha.2 c hc
  · exact hb.2 c hc

section
variable {width : Nat} {cells : List (List Char)}

theorem isBlank_replicate (n : Nat) : ∀ c ∈ List.replicate n ' ', isBlank c := by
  intro c hc
  rw [List.eq_of_mem_replicate hc]
  decide

/-- a word in front of padded cells takes in the cells that are not set off from it -/
theorem length_words_append_cells (hcells : ∀ cell ∈ cells, OneWord cell) {word : List Char}
    (hword : OneWord word) :
    (words isBlank (word ++ cells.flatMap (padLeft width))).length =
      1 + cells.countP (·.length < width) := by
  induction cells generalizing word with
  | nil =>
    have hsingle : words isBlank (word ++ []) = [word] := words_word_append hword.1 hword.2 nofun
    rw [List.flatMap_nil, hsingle]
    rfl
  | cons cell cells ih =>
    obtain ⟨hcell, hrest⟩ := List.forall_mem_cons.1 hcells
    rw [List.flatMap_cons, padLeft]
    by_cases hlt : cell.length < width
    · -- a blank ends the word, and the cell starts the next one
      have hcount : (cell :: cells).countP (·.length < width) =
          cells.countP (·.length < width) + 1 := List.countP_cons_of_pos (decide_eq_true hlt)
      obtain ⟨n, hn⟩ := Nat.exists_eq_add_of_lt hlt
      have hpad : width - cell.length = n + 1 := by omega
      have hstart : ∀ c, (List.replicate (n + 1) ' ' ++ cell ++
          cells.flatMap (padLeft width)).head? = some c → isBlank c := by
        intro c hc
        rw [List.replicate_succ, List.cons_append, List.cons_append, List.head?_cons] at hc
        cases hc
        decide
      rw [hpad, words_word_append hword.1 hword.2 hstart, List.append_assoc,
        words_append_left (isBlank_replicate _), List.length_cons, ih hrest hcell, hcount]
      omega
    · -- the cell goes on with the word
      have hcount : (cell :: cells).countP (·.length < width) =
          cells.countP (·.length < width) :=
        List.countP_cons_of_neg (by rwa [decide_eq_true_iff])
      have hpad : width - cell.length = 0 := by omega
      rw [hpad, List.replicate_zero, List.nil_append, ← List.append_assoc,
        ih hrest (hword.append hcell), hcount]

/-- a row of cells has as many words as cells exactly if all of them but the first leave room for a
blank -/
theorem length_words_cells (hne : cells ≠ []) (hcells : ∀ cell ∈ cells, OneWord cell) :
    (words isBlank (cells.flatMap (padLeft width))).length = cells.length ↔
      ∀ cell ∈ cells.tail, cell.length < width := by
  obtain ⟨first, rest, rfl⟩ := List.exists_cons_of_ne_nil hne
  obtain ⟨hfirst, hrest⟩ := List.forall_mem_cons.1 hcells
  rw [List.flatMap_cons, padLeft, List.append_assoc, words_append_left (isBlank_replicate _),
    length_words_append_cells hrest hfirst, List.length_cons, List.tail_cons, Nat.add_comm,
    Nat.add_right_cancel_iff, List.countP_eq_length]
  simp only [decide_eq_true_iff]

theorem length_cells_ge (width : Nat) (cells : List (List Char)) :
    width * cells.length ≤ (cells.flatMap (padLeft width)).length := by
  induction cells with
  | nil => exact Nat.le_refl _
  | cons cell cells ih =>
    rw [List.flatMap_cons, List.length_append, length_padLeft, List.length_cons, Nat.mul_succ]
    omega

/-- the row is as long as its columns are wide exactly if no cell is too long -/
theorem length_cells_eq_iff :
    (cells.flatMap (padLeft width)).length = width * cells.length ↔
      ∀ cell ∈ cells, cell.length ≤ width := by
  induction cells with
  | nil => exact ⟨fun _ => nofun, fun _ => rfl⟩
  | cons cell cells ih =>
    have hge := length_cells_ge width cells
    rw [List.forall_mem_cons, ← ih, List.flatMap_cons, List.length_append, length_padLeft,
      List.length_cons, Nat.mul_succ]
    omega

end

namespace BasicTableau

/-! ### lines -/

/-- what stands after the first bar -/
def afterBar (line : List Char) : List Char := (line.dropWhile (· != '|')).tail

/-- lines of one length, each of which splits at its blanks into a cell for each column, after the
bar -/
structure Readable (lines : List (List Char)) (columns : Nat) : Prop where
  aligned : ∀ line ∈ lines, ∀ line' ∈ lines, line.length = line'.length
  cells : ∀ line ∈ lines, (words isBlank (afterBar line)).length = columns

section
variable {label : List Char} {cells : List (List Char)}

theorem afterBar_gridLine (hlabel : '|' ∉ label) (cells : List (List Char)) :
    afterBar (gridLine label cells) = cells.flatMap (padLeft cellWidth) := by
  have hbefore : ∀ c ∈ padRight labelWidth label, (c != '|') = true := by
    intro c hc
    rw [bne_iff_ne]
    rintro rfl
    rcases List.mem_append.1 hc with hc | hc
    · exact hlabel hc
    · exact absurd (List.eq_of_mem_replicate hc) (by decide)
  rw [afterBar, gridLine, List.dropWhile_append_of_pos hbefore,
    List.dropWhile_cons_of_neg (by decide), List.tail_cons]

theorem length_gridLine_eq_iff : (gridLine label cells).length = 7 + 10 * cells.length ↔
    label.length ≤ 6 ∧ ∀ cell ∈ cells, cell.length ≤ 10 := by
  have hge := length_cells_ge cellWidth cells
  have hfits : (∀ cell ∈ cells, cell.length ≤ 10) ↔
      (cells.flatMap (padLeft cellWidth)).length = 10 * cells.length := length_cells_eq_iff.symm
  rw [gridLine, List.length_append, length_padRight, List.length_cons, hfits]
  simp only [labelWidth, cellWidth] at hge ⊢
  omega

/-- the characters of a line are those of its texts, spaces and the bar -/
theorem of_mem_gridLine (hlabel : OneWord label) (hcells : ∀ cell ∈ cells, OneWord cell) {c : Char}
    (hc : c ∈ gridLine label cells) : c = ' ' ∨ isBlank c = false := by
  rw [gridLine, padRight] at hc
  rcases List.mem_append.1 hc with hc | hc
  · rcases List.mem_append.1 hc with hc | hc
    · exact Or.inr (hlabel.2 c hc)
    · exact Or.inl (List.eq_of_mem_replicate hc)
  rcases List.mem_cons.1 hc with rfl | hc
  · exact Or.inr (by decide)
  obtain ⟨cell, hcell, hc⟩ := List.mem_flatMap.1 hc
  rcases List.mem_append.1 hc with hc | hc
  · exact Or.inl (List.eq_of_mem_replicate hc)
  · exact Or.inr ((hcells cell hcell).2 c hc)

end

/-! ### labels and entries -/

theorem oneWord_digitChars (n : Nat) : OneWord (digitChars n) :=
  ⟨digitChars_ne_nil n, fun _ hc => isBlank_of_isDigit (isDigit_of_mem_digitChars hc)⟩

theorem oneWord_variableName (column : Nat) : OneWord (variableName column) := by
  have hx : OneWord ['x'] := ⟨nofun, by simp; decide⟩
  exact hx.append (oneWord_digitChars _)

theorem oneWord_fixedPlaces (places : Nat) (x : Float) : OneWord (fixedPlaces places x) := by
  by_cases hx : isFinite x
  · rw [fixedPlaces_eq hx]
    refine ⟨by simp, ?_⟩
    intro c hc
    rcases List.mem_append.1 hc with hc | hc
    · split_ifs at hc
      · rw [List.mem_singleton.1 hc]
        decide
      · cases hc
    rcases List.mem_append.1 hc with hc | hc
    · exact isBlank_of_isDigit (isDigit_of_mem_digitChars hc)
    rcases List.mem_cons.1 hc with rfl | hc
    · decide
    · exact isBlank_of_isDigit (isDigit_of_mem_fraction hc)
  · rw [fixedPlaces, if_neg hx, nonFinite]
    split_ifs
    · exact ⟨List.cons_ne_nil _ _, by simp; decide⟩
    · exact ⟨List.cons_ne_nil _ _, by simp; decide⟩
    · exact ⟨List.cons_ne_nil _ _, by simp; decide⟩

theorem oneWord_shown (places : Nat) (x : Float) : OneWord (shown places x) :=
  oneWord_fixedPlaces places _

variable {t : BasicTableau Float}

/-- a label is the name of a variable, or `z` -/
theorem label_cases (t : BasicTableau Float) (row : Nat) :
    (∃ column, row < t.constraintCount ∧ t.basis[row]? = some column ∧
      t.label row = variableName column) ∨
    ((∀ column, row < t.constraintCount → t.basis[row]? ≠ some column) ∧ t.label row = ['z']) := by
  rw [label]
  cases hcolumn : t.basis[row]? with
  | none => exact Or.inr ⟨nofun, rfl⟩
  | some column =>
    dsimp only
    by_cases hrow : row < t.constraintCount
    · rw [if_pos hrow]
      exact Or.inl ⟨column, hrow, rfl, rfl⟩
    · rw [if_neg hrow]
      exact Or.inr ⟨fun _ h => absurd h hrow, rfl⟩

theorem oneWord_label (t : BasicTableau Float) (row : Nat) : OneWord (t.label row) := by
  obtain ⟨column, -, -, hlabel⟩ | ⟨-, hlabel⟩ := t.label_cases row
  · rw [hlabel]
    exact oneWord_variableName column
  · rw [hlabel]
    exact ⟨nofun, by simp; decide⟩

theorem bar_not_mem_variableName (column : Nat) : '|' ∉ variableName column := by
  intro h
  rcases List.mem_cons.1 h with h | h
  · exact absurd h (by decide)
  · exact absurd (isDigit_of_mem_digitChars h) (by decide)

theorem bar_not_mem_label (t : BasicTableau Float) (row : Nat) : '|' ∉ t.label row := by
  obtain ⟨column, -, -, hlabel⟩ | ⟨-, hlabel⟩ := t.label_cases row
  · rw [hlabel]
    exact bar_not_mem_variableName column
  · rw [hlabel]
    decide

/-- a name is an `x` and the digits of a number from 1 on -/
theorem length_variableName_le_iff {column k : Nat} (hk : 0 < k) :
    (variableName column).length ≤ k + 1 ↔ column + 1 < 10 ^ k := by
  rw [variableName, List.length_cons, Nat.add_le_add_iff_right, length_digitChars_le_iff hk]

theorem length_label_le_iff {row : Nat} : (t.label row).length ≤ 6 ↔
    ∀ column, row < t.constraintCount → t.basis[row]? = some column → column < 99999 := by
  obtain ⟨column, hrow, hcolumn, hlabel⟩ | ⟨hnone, hlabel⟩ := t.label_cases row
  · rw [hlabel, length_variableName_le_iff (k := 5) (by decide)]
    constructor
    · intro h column' _ hcolumn'
      rw [hcolumn] at hcolumn'
      cases hcolumn'
      omega
    · intro h
      have hlt := h column hrow hcolumn
      omega
  · rw [hlabel]
    exact ⟨fun _ column hrow h => absurd h (hnone column hrow), fun _ => by decide⟩

/-! ### the width of an entry -/

section
variable {x : Float}

theorem rank_le_of_finite (hx : isFinite x) : rank x ≤ infinityRank := (of_decide_eq_true hx).le

theorem length_shown_le_ten_iff :
    (shown 3 x).length ≤ 10 ↔ (x.isFinite → -99999.9995 < x ∧ x < 999999.9995) := by
  have hlow : IsBound 99999.9995 ∧ rank 5e-13 ≤ rank 99999.9995 := by decide +kernel
  have hhigh : IsBound 999999.9995 ∧ rank 5e-13 ≤ rank 999999.9995 := by decide +kernel
  have hlowFrom : ∀ r, 10 ^ 8 ≤ scaled 3 r ↔ rank 99999.9995 ≤ r :=
    le_scaled_iff (by decide +kernel) (by decide +kernel)
  have hhighFrom : ∀ r, 10 ^ 9 ≤ scaled 3 r ↔ rank 999999.9995 ≤ r :=
    le_scaled_iff (by decide +kernel) (by decide +kernel)
  rw [@length_shown_le_iff x 10 _ _ (by decide) hlowFrom hhighFrom ⟨hlow.2, hhigh.2⟩,
    ← isFinite_eq]
  apply forall_congr'
  intro hx
  rw [hlow.1.neg_lt_iff (rank_le_of_finite hx), hhigh.1.lt_iff (rank_le_of_finite hx)]

theorem length_shown_lt_ten_iff :
    (shown 3 x).length < 10 ↔ (x.isFinite → -9999.9995 ≤ x ∧ x < 99999.9995) := by
  have hlow : IsBound 9999.9995 ∧ rank 5e-13 ≤ rank 9999.9995 + 1 := by decide +kernel
  have hhigh : IsBound 99999.9995 ∧ rank 5e-13 ≤ rank 99999.9995 := by decide +kernel
  -- the double of the lower bound is itself just short of one more digit
  have hlowFrom : ∀ r, 10 ^ 7 ≤ scaled 3 r ↔ rank 9999.9995 + 1 ≤ r :=
    le_scaled_iff (by decide +kernel) (by decide +kernel)
  have hhighFrom : ∀ r, 10 ^ 8 ≤ scaled 3 r ↔ rank 99999.9995 ≤ r :=
    le_scaled_iff (by decide +kernel) (by decide +kernel)
  rw [Nat.lt_succ_iff, @length_shown_le_iff x 9 _ _ (by decide) hlowFrom hhighFrom
    ⟨hlow.2, hhigh.2⟩, ← isFinite_eq]
  apply forall_congr'
  intro hx
  rw [hlow.1.neg_le_iff (rank_le_of_finite hx), hhigh.1.lt_iff (rank_le_of_finite hx)]
  omega

end

/-! ### lines with room for their texts -/

/-- texts as they stand in a line of a report -/
structure LineTexts (label : List Char) (cells : List (List Char)) : Prop where
  oneWord_label : OneWord label
  bar_not_mem : '|' ∉ label
  cells_ne_nil : cells ≠ []
  oneWord_cell : ∀ cell ∈ cells, OneWord cell

/-- There is room for a label and cells: the first cell may fill its column, the others leave a
blank. -/
structure HasRoom (label : List Char) (cells : List (List Char)) : Prop where
  label_le : label.length ≤ 6
  cell_le : ∀ cell ∈ cells, cell.length ≤ 10
  tail_lt : ∀ cell ∈ cells.tail, cell.length < 10

/-- a line is as long as its columns are wide, and has a word for each, exactly if there is room for
its texts -/
theorem LineTexts.hasRoom_iff {label : List Char} {cells : List (List Char)}
    (h : LineTexts label cells) : HasRoom label cells ↔
      (gridLine label cells).length = 7 + 10 * cells.length ∧
        (words isBlank (afterBar (gridLine label cells))).length = cells.length := by
  rw [afterBar_gridLine h.bar_not_mem, length_gridLine_eq_iff,
    length_words_cells h.cells_ne_nil h.oneWord_cell]
  exact ⟨fun hroom => ⟨⟨hroom.1, hroom.2⟩, hroom.3⟩, fun hroom => ⟨hroom.1.1, hroom.1.2, hroom.2⟩⟩

/-- the titles of the columns -/
def titles (t : BasicTableau Float) : List (List Char) :=
  (List.range t.variableCount).map variableName ++ ["rhs".toList]

theorem length_titles (t : BasicTableau Float) : t.titles.length = t.variableCount + 1 := by
  rw [titles, List.length_append, List.length_map, List.length_range, List.length_singleton]

theorem mem_titles {title : List Char} (h : title ∈ t.titles) :
    (∃ column < t.variableCount, title = variableName column) ∨ title = "rhs".toList := by
  rcases List.mem_append.1 h with h | h
  · obtain ⟨column, hcolumn, rfl⟩ := List.mem_map.1 h
    exact Or.inl ⟨column, List.mem_range.1 hcolumn, rfl⟩
  · exact Or.inr (List.mem_singleton.1 h)

theorem lineTexts_head (t : BasicTableau Float) : LineTexts "basis".toList t.titles where
  oneWord_label := ⟨nofun, by simp; decide⟩
  bar_not_mem := by decide
  cells_ne_nil := List.append_ne_nil_of_right_ne_nil _ (List.cons_ne_nil _ _)
  oneWord_cell := by
    intro title h
    obtain ⟨column, -, rfl⟩ | rfl := mem_titles h
    · exact oneWord_variableName column
    · exact ⟨nofun, by simp; decide⟩

/-- a name that leaves a blank is not that of a variable too far out -/
theorem variableCount_lt_of_titles (h : ∀ title ∈ t.titles.tail, title.length < 10) :
    t.variableCount < 10 ^ 8 := by
  by_contra hlarge
  -- the last variable is not in the first column
  have hname : variableName (t.variableCount - 1) ∈ t.titles.tail := by
    have hrange : List.range t.variableCount =
        List.range (t.variableCount - 1) ++ [t.variableCount - 1] := by
      rw [← List.range_succ, Nat.succ_eq_add_one, Nat.sub_add_cancel (by omega)]
    have hne : (List.range (t.variableCount - 1)).map variableName ≠ [] := by
      rw [Ne, List.map_eq_nil_iff, List.range_eq_nil]
      omega
    rw [titles, hrange, List.map_append, List.append_assoc, List.tail_append_of_ne_nil hne]
    simp
  have hshort := h _ hname
  have hlast : t.variableCount - 1 + 1 < 10 ^ 8 :=
    (length_variableName_le_iff (by decide)).1 (Nat.le_of_lt_succ hshort)
  omega

theorem hasRoom_head (h : t.variableCount < 10 ^ 8) : HasRoom "basis".toList t.titles := by
  have htitle : ∀ title ∈ t.titles, title.length < 10 := by
    intro title hmem
    obtain ⟨column, hcolumn, rfl⟩ | rfl := mem_titles hmem
    · have hlt : column + 1 < 10 ^ 8 := by omega
      exact Nat.lt_succ_of_le ((length_variableName_le_iff (by decide)).2 hlt)
    · decide
  exact ⟨by decide, fun title hmem => (htitle title hmem).le,
    fun title hmem => htitle title (List.mem_of_mem_tail hmem)⟩

theorem lineTexts_row {row : Nat} (hrow : row < t.rows.length) :
    LineTexts (t.label row) (t.rows[row].map (shown 3)) where
  oneWord_label := t.oneWord_label row
  bar_not_mem := t.bar_not_mem_label row
  cells_ne_nil := by
    rw [Ne, List.map_eq_nil_iff, ← List.length_eq_zero_iff, t.length_getElem_rows hrow]
    exact Nat.succ_ne_zero _
  oneWord_cell := by
    intro cell hcell
    obtain ⟨x, -, rfl⟩ := List.mem_map.1 hcell
    exact oneWord_shown 3 x

/-- Entries for which there is room: those of the first column may be ten characters long, the
others nine. -/
structure NarrowRow (row : List Float) : Prop where
  first : ∀ x, row.head? = some x → x.isFinite → -99999.9995 < x ∧ x < 999999.9995
  others : ∀ x ∈ row.tail, x.isFinite → -9999.9995 ≤ x ∧ x < 99999.9995

theorem narrowRow_iff {row : List Float} : NarrowRow row ↔
    (∀ cell ∈ row.map (shown 3), cell.length ≤ 10) ∧
      ∀ cell ∈ (row.map (shown 3)).tail, cell.length < 10 := by
  rw [← List.map_tail, List.forall_mem_map, List.forall_mem_map]
  constructor
  · intro h
    have hothers : ∀ x ∈ row.tail, (shown 3 x).length < 10 := fun x hx =>
      length_shown_lt_ten_iff.2 (h.others x hx)
    refine ⟨?_, hothers⟩
    intro x hx
    cases row with
    | nil => cases hx
    | cons y row =>
      rcases List.mem_cons.1 hx with rfl | hx
      · exact length_shown_le_ten_iff.2 (h.first x rfl)
      · exact (hothers x hx).le
  · rintro ⟨hall, hothers⟩
    refine ⟨fun x hx => ?_, fun x hx => length_shown_lt_ten_iff.1 (hothers x hx)⟩
    exact length_shown_le_ten_iff.1 (hall x (List.mem_of_mem_head? hx))

/-! ### readable reports -/

/-- There is room for everything in the report: the names of the variables, the labels of the rows
and the entries.  Entries that are not finite are short. -/
structure Narrow (t : BasicTableau Float) : Prop where
  variableCount_lt : t.variableCount < 10 ^ 8
  labels : ∀ row column, row < t.constraintCount → t.basis[row]? = some column → column < 99999
  entries : ∀ row ∈ t.rows, NarrowRow row

theorem hasRoom_row_iff {row : Nat} (hrow : row < t.rows.length) :
    HasRoom (t.label row) (t.rows[row].map (shown 3)) ↔
      (∀ column, row < t.constraintCount → t.basis[row]? = some column → column < 99999) ∧
        NarrowRow t.rows[row] := by
  rw [narrowRow_iff, ← length_label_le_iff]
  exact ⟨fun h => ⟨h.1, h.2, h.3⟩, fun h => ⟨h.1, h.2.1, h.2.2⟩⟩

theorem mem_gridLines {line : List Char} : line ∈ t.gridLines ↔
    line = t.headLine ∨
      ∃ (row : Nat) (hrow : row < t.rows.length), line = t.rowLine row t.rows[row] := by
  rw [gridLines, List.mem_cons, List.mem_mapIdx]
  simp only [eq_comm]

/-- there is room in every line -/
theorem narrow_iff : t.Narrow ↔ HasRoom "basis".toList t.titles ∧
    ∀ row (hrow : row < t.rows.length), HasRoom (t.label row) (t.rows[row].map (shown 3)) := by
  constructor
  · intro h
    refine ⟨hasRoom_head h.variableCount_lt, ?_⟩
    intro row hrow
    exact (hasRoom_row_iff hrow).2 ⟨fun column => h.labels row column,
      h.entries _ (List.getElem_mem hrow)⟩
  · rintro ⟨hhead, hrows⟩
    refine ⟨variableCount_lt_of_titles hhead.tail_lt, ?_, ?_⟩
    · intro row column hrow
      have hlt : row < t.rows.length := by rw [t.length_rows]; omega
      exact ((hasRoom_row_iff hlt).1 (hrows row hlt)).1 column hrow
    · intro row hrow
      obtain ⟨i, hi, rfl⟩ := List.getElem_of_mem hrow
      exact ((hasRoom_row_iff hi).1 (hrows i hi)).2

/-- a report is readable exactly if there is room for everything in it -/
theorem readable_iff_narrow : Readable t.gridLines (t.variableCount + 1) ↔ t.Narrow := by
  have hhead := t.lineTexts_head.hasRoom_iff
  rw [t.length_titles] at hhead
  have hrow : ∀ row (hrow : row < t.rows.length),
      HasRoom (t.label row) (t.rows[row].map (shown 3)) ↔
        (t.rowLine row t.rows[row]).length = 7 + 10 * (t.variableCount + 1) ∧
          (words isBlank (afterBar (t.rowLine row t.rows[row]))).length = t.variableCount + 1 := by
    intro row hrow
    have hline := (lineTexts_row hrow).hasRoom_iff
    rw [List.length_map, t.length_getElem_rows hrow] at hline
    exact hline
  rw [narrow_iff]
  constructor
  · intro h
    have hheadMem : t.headLine ∈ t.gridLines := mem_gridLines.2 (Or.inl rfl)
    -- the words of the first line bound the number of columns, and so they give its length
    have hwords : (words isBlank (t.titles.flatMap (padLeft cellWidth))).length =
        t.titles.length := by
      rw [← afterBar_gridLine t.lineTexts_head.bar_not_mem, t.length_titles]
      exact h.cells _ hheadMem
    have htail := (length_words_cells t.lineTexts_head.cells_ne_nil
      t.lineTexts_head.oneWord_cell).1 hwords
    have hheadRoom := hasRoom_head (variableCount_lt_of_titles htail)
    refine ⟨hheadRoom, ?_⟩
    intro row hlt
    have hrowMem : t.rowLine row t.rows[row] ∈ t.gridLines :=
      mem_gridLines.2 (Or.inr ⟨row, hlt, rfl⟩)
    exact (hrow row hlt).2 ⟨(h.aligned _ hrowMem _ hheadMem).trans (hhead.1 hheadRoom).1,
      h.cells _ hrowMem⟩
  · rintro ⟨hheadRoom, hrowRoom⟩
    have hline : ∀ line ∈ t.gridLines, line.length = 7 + 10 * (t.variableCount + 1) ∧
        (words isBlank (afterBar line)).length = t.variableCount + 1 := by
      intro line hmem
      obtain rfl | ⟨row, hlt, rfl⟩ := mem_gridLines.1 hmem
      · exact hhead.1 hheadRoom
      · exact (hrow row hlt).1 (hrowRoom row hlt)
    refine ⟨?_, fun line hmem => (hline line hmem).2⟩
    intro line hmem line' hmem'
    exact (hline line hmem).1.trans (hline line' hmem').1.symm

/-! ### the text of a report -/

/-- lines without line feeds and carriage returns, each ended by a line feed, are the lines of the
text -/
theorem linesOf_ended {lines : List (List Char)}
    (h : ∀ line ∈ lines, '\n' ∉ line ∧ '\r' ∉ line) :
    LinesOf (lines.flatMap (· ++ ['\n'])) lines := by
  induction lines with
  | nil => exact .nil
  | cons line lines ih =>
    obtain ⟨⟨hfeed, hreturn⟩, hrest⟩ := List.forall_mem_cons.1 h
    have hended := LinesOf.ended hfeed (ih hrest)
    have hsame : withoutReturn line = line :=
      if_neg fun hlast => hreturn (List.mem_of_mem_getLast? hlast)
    rw [hsame] at hended
    rw [List.flatMap_cons, List.append_assoc]
    exact hended

/-- A report has the lines of the grid.  They are of one length, and each splits at its blanks into
as many cells as there are columns, exactly if the variables are fewer than `10 ^ 8`, the basic ones
are among the first 99999, the finite entries of the first column are above `-99999.9995` and below
`999999.9995`, and all other finite entries at least `-9999.9995` and below `99999.9995`. -/
theorem readable_iff (t : BasicTableau Float) : LinesOf t.report.toList t.gridLines ∧
    (Readable t.gridLines (t.variableCount + 1) ↔ t.Narrow) := by
  refine ⟨?_, readable_iff_narrow⟩
  rw [report, String.toList_ofList]
  apply linesOf_ended
  intro line hline
  have hchars : ∀ c ∈ line, c = ' ' ∨ isBlank c = false := by
    intro c hc
    obtain rfl | ⟨row, hrow, rfl⟩ := mem_gridLines.1 hline
    · exact of_mem_gridLine t.lineTexts_head.oneWord_label t.lineTexts_head.oneWord_cell hc
    · exact of_mem_gridLine (lineTexts_row hrow).oneWord_label (lineTexts_row hrow).oneWord_cell hc
  constructor
  · intro h
    exact absurd (hchars _ h) (by decide)
  · intro h
    exact absurd (hchars _ h) (by decide)

/-- a large right side beside a column of the usual width -/
def wideRhs : BasicTableau Float :=
  ⟨⟨[[1, 0, 2000000], [0, 0, 0]], .maximize, 2, nofun, by decide⟩, [0]⟩

/-- the right side is glued to the entry on its left, and its line is longer than the others -/
theorem readable_wideRhs : (∀ row ∈ wideRhs.rows, ∀ x ∈ row, x.isFinite) ∧
    ¬ Readable wideRhs.gridLines (wideRhs.variableCount + 1) ∧ wideRhs.report =
      "basis |        x1        x2       rhs\n" ++ "x1    |     1.000     0.0002000000.000\n" ++
        "z     |     0.000     0.000     0.000\n" := by
  refine ⟨by decide +kernel, ?_, by decide +kernel⟩
  intro h
  have hlengths : wideRhs.headLine.length = 37 ∧
      (wideRhs.rowLine 0 [1, 0, 2000000]).length = 38 := by
    decide +kernel
  have hsame := h.aligned wideRhs.headLine List.mem_cons_self (wideRhs.rowLine 0 [1, 0, 2000000])
    (List.mem_cons_of_mem _ List.mem_cons_self)
  omega

end BasicTableau

end LinearProgram
