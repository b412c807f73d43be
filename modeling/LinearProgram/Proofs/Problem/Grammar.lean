import Mathlib.Data.List.Forall2
import LinearProgram.Problem.Reader
import LinearProgram.Proofs.Decimal.Numeral
import LinearProgram.Proofs.Text.Words

/-!
# The grammar of problems

What a text spells as a problem, and which fault of a text is the one that is reported, as
relations that do not say how a text is read.

* `Line.NumberedFrom`        the lines that mean something, with their numbers;
* `Line.SpellsObjective`, `Line.SpellsConstraint`   what one of them spells;
* `Problem.Spells`           what a text spells;
* `Problem.read_iff`         it is what is read.
-/

namespace LinearProgram

/-- the word spells a finite number -/
def NumberWord (word : List Char) (x : Float) : Prop :=
  ∃ n, Numeral.Spells word n ∧ n.decimal.nearest = x ∧ Double.isFinite x

/-- the first of the words that spells no finite number -/
def FirstBadNumber (words : List (List Char)) (bad : List Char) : Prop :=
  ∃ before after, words = before ++ bad :: after ∧ (∀ w ∈ before, ∃ x, NumberWord w x) ∧
    ¬ ∃ x, NumberWord bad x

namespace Line

/-- The lines of these texts that mean something, of which the first has this number. -/
inductive NumberedFrom : Nat → List (List Char) → List Line → Prop where
  | nil {number : Nat} : NumberedFrom number [] []
  | skip {number : Nat} {text core : List Char} {rest : List (List Char)} {lines : List Line}
    (htrim : Trimmed text core) (h : core = [] ∨ core.head? = some '#')
    (hrest : NumberedFrom (number + 1) rest lines) : NumberedFrom number (text :: rest) lines
  | line {number : Nat} {text core : List Char} {words : List (List Char)}
    {rest : List (List Char)} {lines : List Line} (htrim : Trimmed text core) (hne : core ≠ [])
    (hmark : core.head? ≠ some '#') (hwords : WordsOf (fun c => c == ' ' || c == '\t') core words)
    (hrest : NumberedFrom (number + 1) rest lines) :
    NumberedFrom number (text :: rest) (⟨number, words⟩ :: lines)

/-- `c1 ... cm max|min`, and the faults of such a line -/
inductive SpellsObjective (l : Line) : Except ReadError (List Float × Sense) → Prop where
  | objective {numbers : List (List Char)} {xs : List Float} {sense : Sense}
    (hwords : l.words = numbers ++ [sense.symbol.toList]) (hne : numbers ≠ [])
    (hnumbers : List.Forall₂ NumberWord numbers xs) : SpellsObjective l (.ok (xs, sense))
  | empty (hwords : l.words.length = 1) : SpellsObjective l (.error .emptyObjective)
  | sense {numbers : List (List Char)} {word : List Char} (hwords : l.words = numbers ++ [word])
    (hne : numbers ≠ []) (hword : ∀ sense : Sense, word ≠ sense.symbol.toList) :
    SpellsObjective l (.error (.unknownSense l.number (String.ofList word)))
  | number {numbers : List (List Char)} {sense : Sense} {word : List Char}
    (hwords : l.words = numbers ++ [sense.symbol.toList]) (hbad : FirstBadNumber numbers word) :
    SpellsObjective l (.error (.invalidNumber l.number (String.ofList word)))

/-- `a1 ... am REL b`, and the faults of such a line -/
inductive SpellsConstraint (m : Nat) (l : Line) : Except ReadError (Constraint Float) → Prop where
  | constraint {numbers : List (List Char)} {word : List Char} {c : Constraint Float}
    (hwords : l.words = numbers ++ [c.relation.symbol.toList, word]) (hlen : numbers.length = m)
    (hnumbers : List.Forall₂ NumberWord numbers c.coefficients) (hrhs : NumberWord word c.rhs) :
    SpellsConstraint m l (.ok c)
  | count (hlen : l.words.length ≠ m + 2) :
    SpellsConstraint m l (.error (.tokenCount l.number (m + 2) l.words.length))
  | coefficient {numbers : List (List Char)} {relation rhs word : List Char}
    (hwords : l.words = numbers ++ [relation, rhs]) (hlen : numbers.length = m)
    (hbad : FirstBadNumber numbers word) :
    SpellsConstraint m l (.error (.invalidNumber l.number (String.ofList word)))
  | relation {numbers : List (List Char)} {word rhs : List Char}
    (hwords : l.words = numbers ++ [word, rhs]) (hlen : numbers.length = m)
    (hnumbers : ∀ w ∈ numbers, ∃ x, NumberWord w x)
    (hword : ∀ relation : Relation, word ≠ relation.symbol.toList) :
    SpellsConstraint m l (.error (.unknownRelation l.number (String.ofList word)))
  | rhs {numbers : List (List Char)} {relation : Relation} {word : List Char}
    (hwords : l.words = numbers ++ [relation.symbol.toList, word]) (hlen : numbers.length = m)
    (hnumbers : ∀ w ∈ numbers, ∃ x, NumberWord w x) (hbad : ¬ ∃ x, NumberWord word x) :
    SpellsConstraint m l (.error (.invalidNumber l.number (String.ofList word)))

end Line

/-- What a text spells: a problem, or the fault that comes first. -/
inductive Problem.Spells (text : List Char) : Except ReadError (Problem Float) → Prop where
  | problem {texts : List (List Char)} {lines : List Line} {last : Line} {p : Problem Float}
    (htexts : LinesOf text texts) (hlines : Line.NumberedFrom 1 texts (lines ++ [last]))
    (hne : lines ≠ []) (hobjective : last.SpellsObjective (.ok (p.objective, p.sense)))
    (hconstraints : List.Forall₂
      (fun line c => line.SpellsConstraint p.objective.length (.ok c)) lines p.constraints) :
    Spells text (.ok p)
  | missing {texts : List (List Char)} (htexts : LinesOf text texts)
    (hlines : Line.NumberedFrom 1 texts []) : Spells text (.error .missingObjective)
  | alone {texts : List (List Char)} {last : Line} (htexts : LinesOf text texts)
    (hlines : Line.NumberedFrom 1 texts [last]) : Spells text (.error .noConstraints)
  | objective {texts : List (List Char)} {lines : List Line} {last : Line} {e : ReadError}
    (htexts : LinesOf text texts) (hlines : Line.NumberedFrom 1 texts (lines ++ [last]))
    (hne : lines ≠ []) (hobjective : last.SpellsObjective (.error e)) : Spells text (.error e)
  | constraint {texts : List (List Char)} {before after : List Line} {bad last : Line}
    {objective : List Float} {sense : Sense} {e : ReadError} (htexts : LinesOf text texts)
    (hlines : Line.NumberedFrom 1 texts (before ++ bad :: after ++ [last]))
    (hobjective : last.SpellsObjective (.ok (objective, sense)))
    (hbefore : ∀ line ∈ before, ∃ c, line.SpellsConstraint objective.length (.ok c))
    (hbad : bad.SpellsConstraint objective.length (.error e)) : Spells text (.error e)

/-! ### reading one by one -/

section
variable {ε β γ : Type} {f : β → Except ε γ}

theorem mapM_eq_ok_iff {l : List β} {ys : List γ} :
    l.mapM f = .ok ys ↔ List.Forall₂ (fun a b => f a = .ok b) l ys := by
  induction l generalizing ys with
  | nil => cases ys <;> simp [pure, Except.pure]
  | cons a l ih =>
    rw [List.mapM_cons]
    cases hf : f a with
    | error e => cases ys <;> simp [bind, Except.bind, hf]
    | ok b =>
      cases hrest : l.mapM f with
      | error e => cases ys <;> simp [bind, Except.bind, ← ih, hrest]
      | ok bs => cases ys <;> simp [bind, Except.bind, pure, Except.pure, ← ih, hf, hrest]

/-- the first failure is the outcome -/
theorem mapM_eq_error_iff {l : List β} {e : ε} :
    l.mapM f = .error e ↔ ∃ before bad after, l = before ++ bad :: after ∧
      (∀ a ∈ before, ∃ b, f a = .ok b) ∧ f bad = .error e := by
  induction l with
  | nil => simp [pure, Except.pure]
  | cons a l ih =>
    rw [List.mapM_cons]
    cases hf : f a with
    | error e' =>
      show (Except.error e' : Except ε (List γ)) = .error e ↔ _
      rw [Except.error.injEq]
      refine ⟨fun h => ⟨[], a, l, rfl, nofun, h ▸ hf⟩, ?_⟩
      rintro ⟨before, bad, after, hl, hbefore, hbad⟩
      cases before with
      | nil =>
        obtain ⟨rfl, -⟩ := List.cons.inj hl
        exact Except.error.inj (hf.symm.trans hbad)
      | cons d before =>
        obtain ⟨rfl, -⟩ := List.cons.inj hl
        obtain ⟨b, hb⟩ := hbefore a List.mem_cons_self
        rw [hf] at hb
        cases hb
    | ok b =>
      have hrest : (do let b ← Except.ok b; let bs ← l.mapM f; pure (b :: bs)) = .error e ↔
          l.mapM f = .error e := by
        cases l.mapM f <;> simp [bind, Except.bind, pure, Except.pure]
      rw [hrest, ih]
      refine ⟨?_, ?_⟩
      · rintro ⟨before, bad, after, rfl, hbefore, hbad⟩
        exact ⟨a :: before, bad, after, rfl, List.forall_mem_cons.2 ⟨⟨b, hf⟩, hbefore⟩, hbad⟩
      · rintro ⟨before, bad, after, hl, hbefore, hbad⟩
        cases before with
        | nil =>
          obtain ⟨rfl, -⟩ := List.cons.inj hl
          rw [hf] at hbad
          cases hbad
        | cons d before =>
          obtain ⟨rfl, rfl⟩ := List.cons.inj hl
          exact ⟨before, bad, after, rfl, (List.forall_mem_cons.1 hbefore).2, hbad⟩

theorem exists_right_of_forall₂ {R : β → γ → Prop} {l : List β} {ys : List γ}
    (h : List.Forall₂ R l ys) : ∀ a ∈ l, ∃ b, R a b := by
  induction h with
  | nil => nofun
  | cons hab _ ih => exact List.forall_mem_cons.2 ⟨⟨_, hab⟩, ih⟩

end

/-! ### numbers -/

theorem readNumber?_eq_some_iff {word : List Char} {x : Float} :
    readNumber? word = some x ↔ NumberWord word x := by
  simp only [readNumber?, Option.bind_eq_some_iff, NumberWord, Numeral.spells_iff, Numeral.double?,
    Option.filter_eq_some_iff, Option.some.injEq]

theorem FirstBadNumber.ne_nil {words : List (List Char)} {word : List Char}
    (h : FirstBadNumber words word) : words ≠ [] := by
  obtain ⟨before, after, rfl, -⟩ := h
  exact List.append_ne_nil_of_right_ne_nil _ (List.cons_ne_nil _ _)

theorem readNumber?_eq_none_iff {word : List Char} :
    readNumber? word = none ↔ ¬ ∃ x, NumberWord word x := by
  simp only [Option.eq_none_iff_forall_ne_some, ne_eq, readNumber?_eq_some_iff, not_exists]

namespace Line

variable {number m : Nat} {words : List (List Char)} {l : Line}

theorem readNumber_eq_ok_iff {word : List Char} {x : Float} :
    readNumber number word = .ok x ↔ NumberWord word x := by
  rw [readNumber, ← readNumber?_eq_some_iff]
  cases readNumber? word <;> simp

theorem readNumber_eq_error_iff {word : List Char} {e : ReadError} :
    readNumber number word = .error e ↔
      (¬ ∃ x, NumberWord word x) ∧ e = .invalidNumber number (String.ofList word) := by
  rw [readNumber, ← readNumber?_eq_none_iff]
  cases readNumber? word <;> simp [eq_comm]

theorem readNumbers_eq_mapM (number : Nat) (words : List (List Char)) :
    readNumbers number words = words.mapM (readNumber number) := by
  induction words with
  | nil => rfl
  | cons word rest ih =>
    rw [readNumbers, List.mapM_cons, ih]
    cases readNumber number word with
    | error e => rfl
    | ok x => cases rest.mapM (readNumber number) <;> rfl

theorem readConstraints_eq_mapM (m : Nat) (lines : List Line) :
    readConstraints m lines = lines.mapM (readConstraint m) := by
  induction lines with
  | nil => rfl
  | cons line rest ih =>
    rw [readConstraints, List.mapM_cons, ih]
    cases readConstraint m line with
    | error e => rfl
    | ok x => cases rest.mapM (readConstraint m) <;> rfl

theorem readNumbers_eq_ok_iff {xs : List Float} :
    readNumbers number words = .ok xs ↔ List.Forall₂ NumberWord words xs := by
  simp only [readNumbers_eq_mapM, mapM_eq_ok_iff, readNumber_eq_ok_iff]

theorem readNumbers_eq_error_iff {e : ReadError} :
    readNumbers number words = .error e ↔
      ∃ word, FirstBadNumber words word ∧ e = .invalidNumber number (String.ofList word) := by
  simp only [readNumbers_eq_mapM, mapM_eq_error_iff, readNumber_eq_ok_iff, readNumber_eq_error_iff,
    FirstBadNumber]
  refine ⟨?_, ?_⟩
  · rintro ⟨before, bad, after, hwords, hbefore, hbad, he⟩
    exact ⟨bad, ⟨before, after, hwords, hbefore, hbad⟩, he⟩
  · rintro ⟨bad, ⟨before, after, hwords, hbefore, hbad⟩, he⟩
    exact ⟨before, bad, after, hwords, hbefore, hbad, he⟩

/-! ### objectives -/

theorem readObjective_concat {numbers : List (List Char)} {word : List Char}
    (hwords : l.words = numbers ++ [word]) (hne : numbers ≠ []) :
    l.readObjective =
      match Sense.ofSymbol? (String.ofList word) with
      | none => .error (.unknownSense l.number (String.ofList word))
      | some sense =>
        match readNumbers l.number numbers with
        | .error e => .error e
        | .ok objective => .ok (objective, sense) := by
  have hkeep : ¬ numbers.isEmpty = true := by simpa using hne
  rw [readObjective, hwords, List.getLast?_concat, List.dropLast_concat]
  exact if_neg hkeep

theorem SpellsObjective.read_eq {r : Except ReadError (List Float × Sense)}
    (h : l.SpellsObjective r) : l.readObjective = r := by
  cases h with
  | objective hwords hne hnumbers =>
    rw [readObjective_concat hwords hne, Sense.ofSymbol?_eq_some_iff.2 rfl,
      readNumbers_eq_ok_iff.2 hnumbers]
  | empty hwords =>
    obtain ⟨word, hword⟩ := List.length_eq_one_iff.1 hwords
    rw [readObjective, hword]
    rfl
  | sense hwords hne hword =>
    have hnone := Option.eq_none_iff_forall_ne_some.2
      fun s hs => hword s (Sense.ofSymbol?_eq_some_iff.1 hs)
    rw [readObjective_concat hwords hne, hnone]
  | number hwords hbad =>
    rw [readObjective_concat hwords hbad.ne_nil, Sense.ofSymbol?_eq_some_iff.2 rfl,
      readNumbers_eq_error_iff.2 ⟨_, hbad, rfl⟩]

theorem spellsObjective_read (hne : l.words ≠ []) : l.SpellsObjective l.readObjective := by
  have hwords := (List.dropLast_append_getLast hne).symm
  generalize l.words.dropLast = numbers, l.words.getLast hne = word at hwords
  rcases eq_or_ne numbers [] with rfl | hnumbers
  · have hread : l.readObjective = .error .emptyObjective := by
      rw [readObjective, hwords]
      rfl
    rw [hread]
    exact .empty (by rw [hwords]; rfl)
  · rw [readObjective_concat hwords hnumbers]
    cases hsense : Sense.ofSymbol? (String.ofList word) with
    | none =>
      refine .sense hwords hnumbers fun s hs => ?_
      rw [Sense.ofSymbol?_eq_some_iff.2 hs] at hsense
      cases hsense
    | some sense =>
      obtain rfl := Sense.ofSymbol?_eq_some_iff.1 hsense
      cases hread : readNumbers l.number numbers with
      | error e =>
        obtain ⟨bad, hbad, rfl⟩ := readNumbers_eq_error_iff.1 hread
        exact .number hwords hbad
      | ok xs => exact .objective hwords hnumbers (readNumbers_eq_ok_iff.1 hread)

/-! ### constraints -/

theorem readConstraint_append {numbers : List (List Char)} {word rhs : List Char}
    (hwords : l.words = numbers ++ [word, rhs]) (hlen : numbers.length = m) :
    l.readConstraint m =
      match readNumbers l.number numbers with
      | .error e => .error e
      | .ok coefficients =>
        match Relation.ofSymbol? (String.ofList word) with
        | none => .error (.unknownRelation l.number (String.ofList word))
        | some relation =>
          match readNumber l.number rhs with
          | .error e => .error e
          | .ok rhs => .ok ⟨coefficients, relation, rhs⟩ := by
  have hdrop : l.words.drop m = [word, rhs] := by rw [hwords, List.drop_left' hlen]
  have htake : l.words.take m = numbers := by rw [hwords, List.take_left' hlen]
  rw [readConstraint, htake]
  split
  next relation b hsplit =>
    rw [hdrop] at hsplit
    cases hsplit
    rfl
  next hother => exact absurd hdrop (hother _ _)

theorem readConstraint_of_length_ne (h : l.words.length ≠ m + 2) :
    l.readConstraint m = .error (.tokenCount l.number (m + 2) l.words.length) := by
  rw [readConstraint]
  split
  next relation rhs hdrop =>
    have hlen := congrArg List.length hdrop
    rw [List.length_drop, List.length_cons, List.length_singleton] at hlen
    omega
  next => rfl

theorem exists_parts (h : l.words.length = m + 2) :
    ∃ numbers word rhs, l.words = numbers ++ [word, rhs] ∧ numbers.length = m := by
  have hlen : (l.words.drop m).length = 2 := by rw [List.length_drop]; omega
  obtain ⟨word, rhs, hdrop⟩ := List.length_eq_two.1 hlen
  refine ⟨l.words.take m, word, rhs, ?_, ?_⟩
  · rw [← hdrop, List.take_append_drop]
  · rw [List.length_take]
    omega

theorem exists_readNumbers {numbers : List (List Char)}
    (h : ∀ w ∈ numbers, ∃ x, NumberWord w x) : ∃ xs, readNumbers number numbers = .ok xs := by
  cases hread : readNumbers number numbers with
  | ok xs => exact ⟨xs, rfl⟩
  | error e =>
    obtain ⟨bad, ⟨before, after, rfl, -, hbad⟩, -⟩ := readNumbers_eq_error_iff.1 hread
    exact absurd (h bad (List.mem_append_right _ List.mem_cons_self)) hbad

theorem SpellsConstraint.read_eq {r : Except ReadError (Constraint Float)}
    (h : l.SpellsConstraint m r) : l.readConstraint m = r := by
  cases h with
  | constraint hwords hlen hnumbers hrhs =>
    rw [readConstraint_append hwords hlen, readNumbers_eq_ok_iff.2 hnumbers,
      Relation.ofSymbol?_eq_some_iff.2 rfl, readNumber_eq_ok_iff.2 hrhs]
  | count hlen => exact readConstraint_of_length_ne hlen
  | coefficient hwords hlen hbad =>
    rw [readConstraint_append hwords hlen, readNumbers_eq_error_iff.2 ⟨_, hbad, rfl⟩]
  | relation hwords hlen hnumbers hword =>
    obtain ⟨xs, hxs⟩ := exists_readNumbers hnumbers
    have hnone := Option.eq_none_iff_forall_ne_some.2
      fun r hr => hword r (Relation.ofSymbol?_eq_some_iff.1 hr)
    rw [readConstraint_append hwords hlen, hxs, hnone]
  | rhs hwords hlen hnumbers hbad =>
    obtain ⟨xs, hxs⟩ := exists_readNumbers hnumbers
    rw [readConstraint_append hwords hlen, hxs, Relation.ofSymbol?_eq_some_iff.2 rfl,
      readNumber_eq_error_iff.2 ⟨hbad, rfl⟩]

theorem spellsConstraint_read (m : Nat) (l : Line) : l.SpellsConstraint m (l.readConstraint m) := by
  rcases ne_or_eq l.words.length (m + 2) with hlen | hlen
  · rw [readConstraint_of_length_ne hlen]
    exact .count hlen
  · obtain ⟨numbers, word, rhs, hwords, hlen⟩ := exists_parts hlen
    rw [readConstraint_append hwords hlen]
    cases hread : readNumbers l.number numbers with
    | error e =>
      obtain ⟨bad, hbad, rfl⟩ := readNumbers_eq_error_iff.1 hread
      exact .coefficient hwords hlen hbad
    | ok xs =>
      have hnumbers := readNumbers_eq_ok_iff.1 hread
      have hgood : ∀ w ∈ numbers, ∃ x, NumberWord w x := exists_right_of_forall₂ hnumbers
      cases hrelation : Relation.ofSymbol? (String.ofList word) with
      | none =>
        refine .relation hwords hlen hgood fun r hr => ?_
        rw [Relation.ofSymbol?_eq_some_iff.2 hr] at hrelation
        cases hrelation
      | some relation =>
        obtain rfl := Relation.ofSymbol?_eq_some_iff.1 hrelation
        cases hrhs : readNumber l.number rhs with
        | error e =>
          obtain ⟨hbad, rfl⟩ := readNumber_eq_error_iff.1 hrhs
          exact .rhs hwords hlen hgood hbad
        | ok b =>
          exact SpellsConstraint.constraint hwords hlen hnumbers (readNumber_eq_ok_iff.1 hrhs)

/-! ### lines -/

/-- the line of a numbered text, the numbers from zero -/
def ofNumbered? (numbered : List Char × Nat) : Option Line := ofText? (numbered.2 + 1) numbered.1

theorem ofSource_eq (source : List Char) :
    ofSource source = (pieces (· == '\n') source).zipIdx.filterMap ofNumbered? := rfl

theorem ofNumbered?_eq_some {text core : List Char} {i : Nat} (htrim : Trimmed text core)
    (hne : core ≠ []) (hmark : core.head? ≠ some '#') :
    ofNumbered? (text, i) =
      some ⟨i + 1, LinearProgram.words (fun c => c == ' ' || c == '\t') core⟩ := by
  have hmeans : ¬ (core.isEmpty || core.head? == some '#') = true := by simpa using ⟨hne, hmark⟩
  simp only [ofNumbered?, ofText?, trimmed_iff.1 htrim, if_neg hmeans]

theorem ofNumbered?_eq_none {text core : List Char} {i : Nat} (htrim : Trimmed text core)
    (h : core = [] ∨ core.head? = some '#') : ofNumbered? (text, i) = none := by
  have hnone : (core.isEmpty || core.head? == some '#') = true := by simpa using h
  simp only [ofNumbered?, ofText?, trimmed_iff.1 htrim, if_pos hnone]

theorem NumberedFrom.filterMap_eq {texts : List (List Char)} {lines : List Line} {i : Nat}
    (h : NumberedFrom (i + 1) texts lines) : (texts.zipIdx i).filterMap ofNumbered? = lines := by
  generalize hnumber : i + 1 = number at h
  induction h generalizing i with
  | nil => rfl
  | skip htrim hmeans _ ih =>
    subst hnumber
    rw [List.zipIdx_cons, List.filterMap_cons_none (ofNumbered?_eq_none htrim hmeans), ih rfl]
  | line htrim hne hmark hwords _ ih =>
    subst hnumber
    rw [List.zipIdx_cons, List.filterMap_cons_some (ofNumbered?_eq_some htrim hne hmark), ih rfl,
      wordsOf_iff.1 hwords]

theorem numberedFrom_filterMap (texts : List (List Char)) (i : Nat) :
    NumberedFrom (i + 1) texts ((texts.zipIdx i).filterMap ofNumbered?) := by
  induction texts generalizing i with
  | nil => exact .nil
  | cons text rest ih =>
    have htrim := trimmed_trim text
    rw [List.zipIdx_cons]
    by_cases hmeans : trim text = [] ∨ (trim text).head? = some '#'
    · rw [List.filterMap_cons_none (ofNumbered?_eq_none htrim hmeans)]
      exact .skip htrim hmeans (ih (i + 1))
    · obtain ⟨hne, hmark⟩ := not_or.1 hmeans
      rw [List.filterMap_cons_some (ofNumbered?_eq_some htrim hne hmark)]
      exact .line htrim hne hmark (wordsOf_iff.2 rfl) (ih (i + 1))

/-- the pieces between line feeds stand for the lines -/
theorem filterMap_pieces {source : List Char} {texts : List (List Char)}
    (h : LinesOf source texts) (i : Nat) :
    ((pieces (· == '\n') source).zipIdx i).filterMap ofNumbered? =
      (texts.zipIdx i).filterMap ofNumbered? := by
  have hwhole : ∀ line : List Char, '\n' ∉ line → pieces (· == '\n') line = [line] :=
    fun line hfeed => pieces_eq_singleton fun c hc => beq_false_of_ne fun h => hfeed (h ▸ hc)
  induction h generalizing i with
  | nil => rfl
  | last hfeed => rw [hwhole _ hfeed]
  | @ended line rest texts hfeed _ ih =>
    have hsame : ofNumbered? (withoutReturn line, i) = ofNumbered? (line, i) := by
      simp only [ofNumbered?, ofText?, trim_withoutReturn]
    have hcut : pieces (· == '\n') (line ++ '\n' :: rest) =
        pieces (· == '\n') line ++ pieces (· == '\n') rest := pieces_append_cons rfl line rest
    rw [hcut, hwhole _ hfeed, List.singleton_append, List.zipIdx_cons, List.zipIdx_cons,
      List.filterMap_cons, List.filterMap_cons, hsame, ih]

theorem numberedFrom_iff {source : List Char} {texts : List (List Char)} {lines : List Line}
    (h : LinesOf source texts) : NumberedFrom 1 texts lines ↔ ofSource source = lines := by
  rw [ofSource_eq, filterMap_pieces h]
  refine ⟨NumberedFrom.filterMap_eq, ?_⟩
  rintro rfl
  exact numberedFrom_filterMap texts 0

/-- a line that means something has a word -/
theorem NumberedFrom.words_ne_nil {texts : List (List Char)} {lines : List Line}
    (h : NumberedFrom number texts lines) : ∀ l ∈ lines, l.words ≠ [] := by
  induction h with
  | nil => nofun
  | skip _ _ _ ih => exact ih
  | line htrim hne _ hwords _ ih =>
    refine List.forall_mem_cons.2 ⟨fun hnil => ?_, ih⟩
    have hgap := separates_of_words_eq_nil ((wordsOf_iff.1 hwords).trans hnil)
    obtain ⟨c, rest, rfl⟩ := List.exists_cons_of_ne_nil hne
    have hc := hgap c List.mem_cons_self
    rw [Bool.or_eq_true, beq_iff_eq, beq_iff_eq] at hc
    -- a separator at the start would have been trimmed
    apply htrim.first c rfl
    rcases hc with rfl | rfl <;> decide

end Line

/-! ### problems -/

namespace Problem

variable {lines : List Line} {last : Line}

theorem ofLines_eq_ok_iff {p : Problem Float} :
    ofLines lines last = .ok p ↔ last.readObjective = .ok (p.objective, p.sense) ∧
      Line.readConstraints p.objective.length lines = .ok p.constraints := by
  rw [ofLines]
  cases last.readObjective with
  | error e => simp
  | ok read =>
    obtain ⟨objective, sense⟩ := read
    dsimp only
    split
    next e he =>
      simp only [reduceCtorEq, Except.ok.injEq, Prod.mk.injEq, false_iff, not_and]
      rintro ⟨rfl, -⟩ hok
      rw [he] at hok
      cases hok
    next constraints hcs =>
      simp only [Except.ok.injEq, Prod.mk.injEq]
      refine ⟨?_, ?_⟩
      · rintro rfl
        exact ⟨⟨rfl, rfl⟩, hcs⟩
      · rintro ⟨⟨rfl, rfl⟩, hok⟩
        rw [hcs] at hok
        exact Problem.ext rfl rfl (Except.ok.inj hok)

theorem ofLines_eq_error_iff {e : ReadError} :
    ofLines lines last = .error e ↔ last.readObjective = .error e ∨
      ∃ objective sense, last.readObjective = .ok (objective, sense) ∧
        Line.readConstraints objective.length lines = .error e := by
  rw [ofLines]
  cases last.readObjective with
  | error e' => simp
  | ok read =>
    obtain ⟨objective, sense⟩ := read
    dsimp only
    split
    next e' he => simp [he]
    next constraints hcs => simp [hcs]

theorem readChars_of_lines {source : List Char} (h : Line.ofSource source = lines ++ [last])
    (hne : lines ≠ []) : readChars source = ofLines lines last := by
  have hkeep : ¬ lines.isEmpty = true := by simpa using hne
  simp only [readChars, h, List.getLast?_concat, List.dropLast_concat, if_neg hkeep]

theorem Spells.read_eq {source : List Char} {r : Except ReadError (Problem Float)}
    (h : Spells source r) : readChars source = r := by
  cases h with
  | problem htexts hlines hne hobjective hconstraints =>
    rw [readChars_of_lines ((Line.numberedFrom_iff htexts).1 hlines) hne, ofLines_eq_ok_iff,
      Line.readConstraints_eq_mapM, mapM_eq_ok_iff]
    exact ⟨hobjective.read_eq, hconstraints.imp fun _ _ => Line.SpellsConstraint.read_eq⟩
  | missing htexts hlines =>
    rw [readChars, (Line.numberedFrom_iff htexts).1 hlines]
    rfl
  | alone htexts hlines =>
    rw [readChars, (Line.numberedFrom_iff htexts).1 hlines]
    rfl
  | objective htexts hlines hne hobjective =>
    rw [readChars_of_lines ((Line.numberedFrom_iff htexts).1 hlines) hne, ofLines_eq_error_iff]
    exact Or.inl hobjective.read_eq
  | constraint htexts hlines hobjective hbefore hbad =>
    rw [readChars_of_lines ((Line.numberedFrom_iff htexts).1 hlines)
      (List.append_ne_nil_of_right_ne_nil _ (List.cons_ne_nil _ _)), ofLines_eq_error_iff]
    refine Or.inr ⟨_, _, hobjective.read_eq, ?_⟩
    rw [Line.readConstraints_eq_mapM, mapM_eq_error_iff]
    exact ⟨_, _, _, rfl, fun line hline =>
      (hbefore line hline).imp fun _ => Line.SpellsConstraint.read_eq, hbad.read_eq⟩

theorem spells_ofLines {source : List Char} {texts : List (List Char)}
    (htexts : LinesOf source texts) (hlines : Line.NumberedFrom 1 texts (lines ++ [last]))
    (hne : lines ≠ []) : Spells source (ofLines lines last) := by
  have hlast := Line.spellsObjective_read
    (hlines.words_ne_nil last (List.mem_append_right _ List.mem_cons_self))
  cases hread : ofLines lines last with
  | ok p =>
    obtain ⟨hobjective, hconstraints⟩ := ofLines_eq_ok_iff.1 hread
    rw [Line.readConstraints_eq_mapM, mapM_eq_ok_iff] at hconstraints
    exact .problem htexts hlines hne (hobjective ▸ hlast)
      (hconstraints.imp fun line c h => h ▸ line.spellsConstraint_read _)
  | error e =>
    obtain hobjective | ⟨objective, sense, hobjective, hconstraints⟩ :=
      ofLines_eq_error_iff.1 hread
    · exact .objective htexts hlines hne (hobjective ▸ hlast)
    · rw [Line.readConstraints_eq_mapM, mapM_eq_error_iff] at hconstraints
      obtain ⟨before, bad, after, rfl, hbefore, hbad⟩ := hconstraints
      exact .constraint htexts hlines (hobjective ▸ hlast)
        (fun line hline => (hbefore line hline).imp fun c h => h ▸ line.spellsConstraint_read _)
        (hbad ▸ bad.spellsConstraint_read _)

theorem spells_readChars (source : List Char) : Spells source (readChars source) := by
  obtain ⟨texts, htexts⟩ := exists_linesOf source
  have hnumbered := (Line.numberedFrom_iff htexts).2 rfl
  rcases List.eq_nil_or_concat (Line.ofSource source) with hsource | ⟨lines, last, hsource⟩
  · have hread : readChars source = .error .missingObjective := by rw [readChars, hsource]; rfl
    rw [hread]
    exact .missing htexts (hsource ▸ hnumbered)
  · rw [List.concat_eq_append] at hsource
    rw [hsource] at hnumbered
    rcases eq_or_ne lines [] with rfl | hne
    · have hread : readChars source = .error .noConstraints := by rw [readChars, hsource]; rfl
      rw [hread]
      exact .alone htexts hnumbered
    · rw [readChars_of_lines hsource hne]
      exact spells_ofLines htexts hnumbered hne

/-- What is read from a text is what it spells: the problem, or the fault that comes first. -/
theorem read_iff (text : String) (r : Except ReadError (Problem Float)) :
    read text = r ↔ Spells text.toList r :=
  ⟨fun h => h ▸ spells_readChars text.toList, Spells.read_eq⟩

-- rows of each relation between a comment and a blank line, with zeros of both signs
example : read "# a comment\n2 -1e1 <= 4.5\r\n\n+.5 -0 >= 0\n\t1 3. = -7\n 1 2 min " =
    .ok ⟨[1, 2], .minimize, [⟨[2, -10], .lessEqual, 4.5⟩, ⟨[0.5, -0.0], .greaterEqual, 0⟩,
      ⟨[1, 3], .equal, -7⟩], by decide⟩ := by decide +kernel

-- the sense on the last line is judged before the word that is no number on the first
example : read "# two faults\n\n 1 x <= 4 \r\n1 1 maximum" =
    .error (.unknownSense 4 "maximum") := by decide +kernel

-- what lies above all doubles is no number
example : read "1 1 <= 1e999\n1 1 min" = .error (.invalidNumber 1 "1e999") := by decide +kernel

end Problem

end LinearProgram
