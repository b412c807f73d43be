import Mathlib.Data.List.DropRight
import LinearProgram.Text.Blank
import LinearProgram.Text.Piece

/-!
# Lines, trimmed texts and words

What the pieces of a text are, without a word about how they are found: a text cut at its line
feeds, what is left of it without the blanks at its ends, and its longest runs without a separator.

* `Trimmed`, `trimmed_iff`   the text without the blanks at its ends;
* `WordsOf`, `wordsOf_iff`   the longest runs without a separator;
* `LinesOf`                  the lines of a text;
* `PlainLine`                a line put together from words, which is taken apart into them.
-/

namespace LinearProgram

/-! ### trimmed texts -/

/-- `core` is the text without the blanks at its ends -/
structure Trimmed (text core : List Char) : Prop where
  exists_ends : ∃ a b, text = a ++ core ++ b ∧ (∀ c ∈ a, isBlank c) ∧ ∀ c ∈ b, isBlank c
  first : ∀ c, core.head? = some c → ¬ isBlank c
  last : ∀ c, core.getLast? = some c → ¬ isBlank c

theorem trim_eq_rdropWhile (text : List Char) :
    trim text = (text.dropWhile isBlank).rdropWhile isBlank := rfl

theorem trim_append_left {a : List Char} (ha : ∀ c ∈ a, isBlank c) (text : List Char) :
    trim (a ++ text) = trim text := by
  rw [trim, trim, List.dropWhile_append_of_pos ha]

theorem trim_append_right {b : List Char} (hb : ∀ c ∈ b, isBlank c) (text : List Char) :
    trim (text ++ b) = trim text := by
  have hreverse : ∀ c ∈ b.reverse, isBlank c := fun c hc => hb c (List.mem_reverse.1 hc)
  rw [trim, trim, List.dropWhile_append]
  split
  next hblank =>
    rw [List.isEmpty_iff.1 hblank, List.dropWhile_eq_nil_iff.2 hb]
  next => rw [List.reverse_append, List.dropWhile_append_of_pos hreverse]

theorem trim_eq_self {core : List Char} (hfirst : ∀ c, core.head? = some c → ¬ isBlank c)
    (hlast : ∀ c, core.getLast? = some c → ¬ isBlank c) : trim core = core := by
  have hleft : core.dropWhile isBlank = core := by
    cases core with
    | nil => rfl
    | cons c rest => exact List.dropWhile_cons_of_neg (hfirst c rfl)
  rw [trim_eq_rdropWhile, hleft, List.rdropWhile_eq_self_iff]
  exact fun hne => hlast _ (List.getLast?_eq_getLast_of_ne_nil hne)

theorem trimmed_trim (text : List Char) : Trimmed text (trim text) where
  exists_ends := by
    refine ⟨text.takeWhile isBlank, (text.dropWhile isBlank).rtakeWhile isBlank, ?_,
      fun c => List.mem_takeWhile_imp, fun c => List.mem_rtakeWhile_imp⟩
    rw [trim_eq_rdropWhile, List.append_assoc, List.rdropWhile_append_rtakeWhile,
      List.takeWhile_append_dropWhile]
  first c hc := by
    -- the first character that is left is also first before the right end is trimmed
    obtain ⟨b, hb⟩ := List.rdropWhile_prefix isBlank (l := text.dropWhile isBlank)
    obtain ⟨rest, hrest⟩ := List.head?_eq_some_iff.1 hc
    have hdrop : (text.dropWhile isBlank).head? = some c := by
      rw [← hb, ← trim_eq_rdropWhile, hrest]
      rfl
    have hnot := List.head?_dropWhile_not isBlank text
    rw [hdrop] at hnot
    rw [hnot]
    exact Bool.false_ne_true
  last c hc := by
    have hne : trim text ≠ [] := by
      intro hnil
      rw [hnil] at hc
      cases hc
    obtain rfl := Option.some.inj ((List.getLast?_eq_getLast_of_ne_nil hne).symm.trans hc)
    exact List.rdropWhile_last_not _ _ hne

theorem trimmed_iff {text core : List Char} : Trimmed text core ↔ trim text = core := by
  refine ⟨fun h => ?_, fun h => h ▸ trimmed_trim text⟩
  obtain ⟨a, b, rfl, ha, hb⟩ := h.exists_ends
  rw [trim_append_right hb, trim_append_left ha, trim_eq_self h.first h.last]

/-- digits are not trimmed -/
theorem isBlank_of_isDigit {c : Char} (h : c.isDigit) : isBlank c = false := by
  rw [Char.isDigit, Bool.and_eq_true, decide_eq_true_eq, decide_eq_true_eq] at h
  have hlow : 48 ≤ c.toNat := h.1
  have hhigh : c.toNat ≤ 57 := h.2
  simp only [isBlank, blankRanges, List.any_cons, List.any_nil, Bool.or_false, Bool.or_eq_false_iff,
    Bool.and_eq_false_iff, decide_eq_false_iff_not]
  omega

/-! ### words -/

section
variable {separates : Char → Bool}

/-- the longest runs without a separator, in order -/
inductive WordsOf (separates : Char → Bool) : List Char → List (List Char) → Prop where
  | none {gap : List Char} (hgap : ∀ c ∈ gap, separates c) : WordsOf separates gap []
  | next {gap word rest : List Char} {words : List (List Char)} (hgap : ∀ c ∈ gap, separates c)
    (hne : word ≠ []) (hword : ∀ c ∈ word, separates c = false)
    (hmax : ∀ c, rest.head? = some c → separates c) (hrest : WordsOf separates rest words) :
    WordsOf separates (gap ++ word ++ rest) (word :: words)

theorem words_cons {c : Char} (hc : separates c) (text : List Char) :
    words separates (c :: text) = words separates text := by
  rw [words, words, pieces, if_pos hc]
  rfl

theorem words_append_left {gap : List Char} (hgap : ∀ c ∈ gap, separates c) (text : List Char) :
    words separates (gap ++ text) = words separates text := by
  induction gap with
  | nil => rfl
  | cons c gap ih =>
    rw [List.cons_append, words_cons (hgap c List.mem_cons_self)]
    exact ih fun d hd => hgap d (List.mem_cons_of_mem _ hd)

theorem words_word_append {word rest : List Char} (hne : word ≠ [])
    (hword : ∀ c ∈ word, separates c = false) (hmax : ∀ c, rest.head? = some c → separates c) :
    words separates (word ++ rest) = word :: words separates rest := by
  have hkeep : (!word.isEmpty) = true := by simpa using hne
  cases rest with
  | nil => simp only [words, List.append_nil, pieces_eq_singleton hword, List.filter_cons, hkeep,
      if_true, pieces, List.filter_nil, List.isEmpty_nil, Bool.not_true, Bool.false_eq_true, if_false]
  | cons c rest =>
    have hc := hmax c rfl
    rw [words_cons hc, words, pieces_append_cons hc, pieces_eq_singleton hword, words,
      List.filter_append, List.filter_cons, if_pos hkeep]
    rfl

theorem WordsOf.gap {text : List Char} {ws : List (List Char)} (h : WordsOf separates text ws)
    {c : Char} (hc : separates c) : WordsOf separates (c :: text) ws := by
  cases h with
  | none hgap => exact .none (List.forall_mem_cons.2 ⟨hc, hgap⟩)
  | @next gap word rest words hgap hne hword hmax hrest =>
    exact @WordsOf.next _ (c :: gap) _ _ _ (List.forall_mem_cons.2 ⟨hc, hgap⟩) hne hword hmax hrest

/-- a character in front of a text starts its first word, or stands before it -/
theorem WordsOf.cons {text : List Char} {ws : List (List Char)} (h : WordsOf separates text ws)
    (c : Char) : ∃ ws', WordsOf separates (c :: text) ws' := by
  cases hc : separates c with
  | true => exact ⟨ws, h.gap hc⟩
  | false =>
    have hsingle : ∀ d ∈ [c], separates d = false := fun d hd => by rwa [List.mem_singleton.1 hd]
    cases h with
    | none hgap =>
      exact ⟨[[c]], @WordsOf.next _ [] [c] _ _ nofun nofun hsingle
        (fun d hd => hgap d (List.mem_of_mem_head? hd)) (.none hgap)⟩
    | @next gap word rest words hgap hne hword hmax hrest =>
      cases gap with
      | nil =>
        exact ⟨(c :: word) :: words, @WordsOf.next _ [] (c :: word) _ _ nofun nofun
          (List.forall_mem_cons.2 ⟨hc, hword⟩) hmax hrest⟩
      | cons g gap =>
        refine ⟨[c] :: word :: words, @WordsOf.next _ [] [c] _ _ nofun nofun hsingle
          (fun d hd => ?_) (.next hgap hne hword hmax hrest)⟩
        cases hd
        exact hgap _ List.mem_cons_self

theorem exists_wordsOf (separates : Char → Bool) (text : List Char) :
    ∃ ws, WordsOf separates text ws := by
  induction text with
  | nil => exact ⟨[], .none nofun⟩
  | cons c text ih =>
    obtain ⟨ws, hws⟩ := ih
    exact hws.cons c

theorem WordsOf.words_eq {text : List Char} {ws : List (List Char)}
    (h : WordsOf separates text ws) : words separates text = ws := by
  induction h with
  | @none gap hgap =>
    rw [← List.append_nil gap, words_append_left hgap]
    rfl
  | next hgap hne hword hmax _ ih =>
    rw [List.append_assoc, words_append_left hgap, words_word_append hne hword hmax, ih]

theorem wordsOf_iff {text : List Char} {ws : List (List Char)} :
    WordsOf separates text ws ↔ words separates text = ws := by
  refine ⟨WordsOf.words_eq, ?_⟩
  rintro rfl
  obtain ⟨ws, hws⟩ := exists_wordsOf separates text
  rwa [hws.words_eq]

/-- a text without words is blank -/
theorem separates_of_words_eq_nil {text : List Char} (h : words separates text = []) :
    ∀ c ∈ text, separates c := by
  cases wordsOf_iff.2 h with
  | none hgap => exact hgap

end

/-! ### lines -/

/-- the line without the carriage return at its end, if there is one -/
def withoutReturn (line : List Char) : List Char :=
  if line.getLast? = some '\r' then line.dropLast else line

/-- The lines of a text.  Each ends at a line feed, which is no part of it, nor is a carriage return
just before the feed; what comes after the last feed is a line too if it is not empty. -/
inductive LinesOf : List Char → List (List Char) → Prop where
  | nil : LinesOf [] []
  | last {line : List Char} (hfeed : '\n' ∉ line) (hne : line ≠ []) : LinesOf line [line]
  | ended {line rest : List Char} {lines : List (List Char)} (hfeed : '\n' ∉ line)
    (hrest : LinesOf rest lines) : LinesOf (line ++ '\n' :: rest) (withoutReturn line :: lines)

theorem exists_linesOf (text : List Char) : ∃ lines, LinesOf text lines := by
  induction text with
  | nil => exact ⟨[], .nil⟩
  | cons c text ih =>
    obtain ⟨lines, h⟩ := ih
    by_cases hc : c = '\n'
    · subst hc
      exact ⟨_, @LinesOf.ended [] _ _ nofun h⟩
    · -- the character belongs to the first line, which it may be all of
      have hfeed : ∀ line : List Char, '\n' ∉ line → '\n' ∉ c :: line := by
        intro line hline hmem
        rcases List.mem_cons.1 hmem with rfl | hmem
        · exact hc rfl
        · exact hline hmem
      cases h with
      | nil => exact ⟨[[c]], .last (hfeed [] nofun) nofun⟩
      | last hline => exact ⟨_, .last (hfeed _ hline) nofun⟩
      | ended hline hrest => exact ⟨_, .ended (hfeed _ hline) hrest⟩

theorem trim_withoutReturn (line : List Char) : trim (withoutReturn line) = trim line := by
  rw [withoutReturn]
  split
  next h =>
    obtain ⟨rest, rfl⟩ := List.getLast?_eq_some_iff.1 h
    rw [List.dropLast_concat, trim_append_right]
    intro c hc
    rw [List.mem_singleton.1 hc]
    decide
  next => rfl

/-! ### plain lines -/

/-- a word that stands in a line as it is -/
structure PlainWord (word : List Char) : Prop where
  ne_nil : word ≠ []
  not_blank : ∀ c ∈ word, isBlank c = false
  not_mark : '#' ∉ word

/-- the line is made of these words with one space between them -/
inductive PlainLine : List Char → List (List Char) → Prop where
  | last {word : List Char} (hword : PlainWord word) : PlainLine word [word]
  | cons {word line : List Char} {words : List (List Char)} (hword : PlainWord word)
    (hrest : PlainLine line words) : PlainLine (word ++ ' ' :: line) (word :: words)

theorem PlainWord.separates_eq_false {word : List Char} (h : PlainWord word) :
    ∀ c ∈ word, (c == ' ' || c == '\t') = false := by
  intro c hc
  have hblank := h.not_blank c hc
  rw [Bool.or_eq_false_iff, beq_eq_false_iff_ne, beq_eq_false_iff_ne]
  constructor <;> rintro rfl <;> exact absurd hblank (by decide)

namespace PlainLine

variable {line : List Char} {ws : List (List Char)}

/-- a plain line starts with a word -/
theorem exists_word (h : PlainLine line ws) :
    ∃ word rest, PlainWord word ∧ line = word ++ rest := by
  cases h with
  | last hword => exact ⟨_, [], hword, (List.append_nil _).symm⟩
  | cons hword => exact ⟨_, _, hword, rfl⟩

theorem ne_nil (h : PlainLine line ws) : line ≠ [] := by
  obtain ⟨word, rest, hword, rfl⟩ := h.exists_word
  exact List.append_ne_nil_of_left_ne_nil hword.ne_nil rest

theorem of_head (h : PlainLine line ws) {c : Char} (hc : line.head? = some c) :
    isBlank c = false ∧ c ≠ '#' := by
  obtain ⟨word, rest, hword, rfl⟩ := h.exists_word
  rw [List.head?_append_of_ne_nil _ hword.ne_nil] at hc
  have hmem := List.mem_of_mem_head? hc
  exact ⟨hword.not_blank c hmem, fun hmark => hword.not_mark (hmark ▸ hmem)⟩

theorem of_getLast (h : PlainLine line ws) {c : Char} (hc : line.getLast? = some c) :
    isBlank c = false := by
  induction h with
  | last hword => exact hword.not_blank c (List.mem_of_mem_getLast? hc)
  | cons _ hrest ih =>
    rw [List.getLast?_append_of_ne_nil _ (List.cons_ne_nil _ _), List.getLast?_cons_of_ne_nil
      hrest.ne_nil] at hc
    exact ih hc

theorem trimmed (h : PlainLine line ws) : Trimmed line line where
  exists_ends := ⟨[], [], (List.append_nil _).symm, nofun, nofun⟩
  first _ hc := Bool.eq_false_iff.1 (h.of_head hc).1
  last _ hc := Bool.eq_false_iff.1 (h.of_getLast hc)

theorem wordsOf (h : PlainLine line ws) : WordsOf (fun c => c == ' ' || c == '\t') line ws := by
  induction h with
  | @last word hword =>
    have hnext := @WordsOf.next (fun c => c == ' ' || c == '\t') [] word [] [] nofun hword.ne_nil
      hword.separates_eq_false nofun (.none nofun)
    rwa [List.append_nil] at hnext
  | @cons word line words hword _ ih =>
    refine @WordsOf.next _ [] word _ _ nofun hword.ne_nil hword.separates_eq_false ?_ (ih.gap rfl)
    rintro c ⟨⟩
    rfl

/-- spaces are the only blanks in a plain line -/
theorem of_mem (h : PlainLine line ws) {c : Char} (hc : c ∈ line) :
    c = ' ' ∨ isBlank c = false := by
  induction h with
  | last hword => exact Or.inr (hword.not_blank c hc)
  | cons hword _ ih =>
    rcases List.mem_append.1 hc with hc | hc
    · exact Or.inr (hword.not_blank c hc)
    · rcases List.mem_cons.1 hc with hc | hc
      · exact Or.inl hc
      · exact ih hc

theorem feed_notMem (h : PlainLine line ws) : '\n' ∉ line := by
  intro hfeed
  rcases h.of_mem hfeed with hspace | hblank
  · exact absurd hspace (by decide)
  · exact absurd hblank (by decide)

theorem withoutReturn_eq (h : PlainLine line ws) : withoutReturn line = line :=
  if_neg fun hreturn => absurd (h.of_getLast hreturn) (by decide)

end PlainLine

/-- plain lines, each but the last one ended by a line feed, are the lines of the text -/
theorem linesOf_plainLines {lines : List (List Char)} {last : List Char}
    (hlines : ∀ line ∈ lines, ∃ ws, PlainLine line ws) (hlast : ∃ ws, PlainLine last ws) :
    LinesOf (lines.flatMap (· ++ ['\n']) ++ last) (lines ++ [last]) := by
  induction lines with
  | nil =>
    obtain ⟨ws, h⟩ := hlast
    exact .last h.feed_notMem h.ne_nil
  | cons line lines ih =>
    obtain ⟨⟨ws, h⟩, hrest⟩ := List.forall_mem_cons.1 hlines
    have hended := LinesOf.ended h.feed_notMem (ih hrest)
    rw [h.withoutReturn_eq] at hended
    rwa [List.flatMap_cons, List.append_assoc, List.append_assoc]

end LinearProgram
