import LinearProgram.Problem.Printer
import LinearProgram.Proofs.Decimal.Layout
import LinearProgram.Proofs.Double.Units
import LinearProgram.Proofs.Problem.Forms
import LinearProgram.Proofs.Problem.Grammar

/-!
# The text of a problem reads back as the problem

The printer and the reader meet at the grammar: the text of a problem is made of plain lines, which
spell the problem.  The forms of a problem that was read have finite numbers, rows and variables
again, so their texts read back too.

* `Problem.Spellable`          finite numbers, and at least one row and one variable;
* `Problem.spells_chars`       what the text of such a problem spells;
* `Problem.spellable_of_read`  what is read is such a problem, and so are its forms
                               (`Spellable.equalities`, `Spellable.turned`, `Spellable.transposed`);
* `Problem.read_append_feed`   a line feed at the end means nothing;
* `Problem.text_reads_back`.
-/

namespace LinearProgram

/-! ### words -/

theorem NumberWord.plainWord {word : List Char} {x : Float} (h : NumberWord word x) :
    PlainWord word := by
  obtain ⟨n, hspells, -⟩ := h
  have hmarks : ∀ c ∈ Numeral.marks, isBlank c = false ∧ c ≠ '#' := by
    simp [Numeral.marks, isBlank, blankRanges]
  have hplain : ∀ c ∈ word, isBlank c = false ∧ c ≠ '#' := by
    intro c hc
    rcases hspells.digit_or_mark c hc with hdigit | hmark
    · refine ⟨isBlank_of_isDigit hdigit, ?_⟩
      rintro rfl
      exact absurd hdigit (by decide)
    · exact hmarks c hmark
  exact ⟨hspells.ne_nil, fun c hc => (hplain c hc).1, fun hc => (hplain _ hc).2 rfl⟩

theorem numberWord_plain {x : Float} (hfinite : Double.isFinite x) :
    NumberWord (Layout.plain.chars x) x :=
  readNumber?_eq_some_iff.1 (readNumber?_chars Layout.plain hfinite)

theorem Relation.plainWord_symbol (r : Relation) : PlainWord r.symbol.toList := by
  cases r <;> constructor <;> simp [symbol, isBlank, blankRanges]

theorem Sense.plainWord_symbol (s : Sense) : PlainWord s.symbol.toList := by
  cases s <;> constructor <;> simp [symbol, isBlank, blankRanges]

section
variable {words : List (List Char)} {numbers : List Float}

theorem forall₂_numberWord (hfinite : ∀ x ∈ numbers, Double.isFinite x) :
    List.Forall₂ NumberWord (numbers.map Layout.plain.chars) numbers :=
  List.forall₂_map_left_iff.2 (List.forall₂_same.2 fun x hx => numberWord_plain (hfinite x hx))

theorem finite_of_forall₂ (h : List.Forall₂ NumberWord words numbers) :
    ∀ x ∈ numbers, Double.isFinite x := by
  intro x hx
  obtain ⟨word, n, -, -, hfinite⟩ := exists_right_of_forall₂ h.flip x hx
  exact hfinite

end

/-! ### problems that can be spelled -/

/-- all numbers of the row are finite -/
structure Constraint.Finite (c : Constraint Float) : Prop where
  coefficients : ∀ x ∈ c.coefficients, Double.isFinite x
  rhs : Double.isFinite c.rhs

/-- all numbers are finite, and there is at least one row and one variable -/
structure Problem.Spellable (p : Problem Float) : Prop where
  objective : ∀ x ∈ p.objective, Double.isFinite x
  constraints : ∀ c ∈ p.constraints, c.Finite
  objective_ne_nil : p.objective ≠ []
  constraints_ne_nil : p.constraints ≠ []

/-! ### lines -/

theorem plainLine_spaced {numbers : List Float} (hfinite : ∀ x ∈ numbers, Double.isFinite x)
    {line : List Char} {ws : List (List Char)} (h : PlainLine line ws) :
    PlainLine (spaced numbers ++ line) (numbers.map Layout.plain.chars ++ ws) := by
  induction numbers with
  | nil => exact h
  | cons x numbers ih =>
    obtain ⟨hx, hrest⟩ := List.forall_mem_cons.1 hfinite
    have hcons := PlainLine.cons (numberWord_plain hx).plainWord (ih hrest)
    simpa [spaced] using hcons

namespace Constraint

/-- the words on the line of a constraint -/
def words (c : Constraint Float) : List (List Char) :=
  c.coefficients.map Layout.plain.chars ++ [c.relation.symbol.toList, Layout.plain.chars c.rhs]

variable {c : Constraint Float}

theorem Finite.plainLine (h : c.Finite) : PlainLine c.chars c.words := by
  have hend := PlainLine.cons (Relation.plainWord_symbol c.relation)
    (.last (numberWord_plain h.rhs).plainWord)
  have hline := plainLine_spaced h.coefficients hend
  rwa [← List.append_assoc] at hline

theorem Finite.spells (h : c.Finite) {m : Nat} (hlen : c.coefficients.length = m) (number : Nat) :
    Line.SpellsConstraint m ⟨number, c.words⟩ (.ok c) :=
  .constraint rfl (by rw [List.length_map, hlen]) (forall₂_numberWord h.coefficients)
    (numberWord_plain h.rhs)

end Constraint

/-- a plain line means something -/
theorem PlainLine.numbered {line : List Char} {ws : List (List Char)} (h : PlainLine line ws)
    {number : Nat} {rest : List (List Char)} {lines : List Line}
    (hrest : Line.NumberedFrom (number + 1) rest lines) :
    Line.NumberedFrom number (line :: rest) (⟨number, ws⟩ :: lines) :=
  .line h.trimmed h.ne_nil (fun hmark => (h.of_head hmark).2 rfl) h.wordsOf hrest

/-- constraints, one on each line, above a last line -/
theorem exists_numbered {cs : List (Constraint Float)} {m : Nat} (hfinite : ∀ c ∈ cs, c.Finite)
    (hlen : ∀ c ∈ cs, c.coefficients.length = m) {last : List Char} {ws : List (List Char)}
    (hlast : PlainLine last ws) (number : Nat) :
    ∃ lines n, Line.NumberedFrom number (cs.map Constraint.chars ++ [last]) (lines ++ [⟨n, ws⟩]) ∧
      List.Forall₂ (fun line c => line.SpellsConstraint m (.ok c)) lines cs := by
  induction cs generalizing number with
  | nil => exact ⟨[], number, hlast.numbered .nil, .nil⟩
  | cons c cs ih =>
    obtain ⟨hc, hfinite⟩ := List.forall_mem_cons.1 hfinite
    obtain ⟨hcm, hlen⟩ := List.forall_mem_cons.1 hlen
    obtain ⟨lines, n, hnumbered, hspells⟩ := ih hfinite hlen (number + 1)
    exact ⟨⟨number, c.words⟩ :: lines, n, hc.plainLine.numbered hnumbered,
      .cons (hc.spells hcm number) hspells⟩

/-! ### problems -/

namespace Problem

variable {p : Problem Float}

theorem Spellable.plainLine (h : p.Spellable) : PlainLine p.objectiveChars
    (p.objective.map Layout.plain.chars ++ [p.sense.symbol.toList]) :=
  plainLine_spaced h.objective (.last (Sense.plainWord_symbol p.sense))

theorem linesOf_chars (h : p.Spellable) :
    LinesOf p.chars (p.constraints.map Constraint.chars ++ [p.objectiveChars]) := by
  have hlines : ∀ line ∈ p.constraints.map Constraint.chars, ∃ ws, PlainLine line ws := by
    intro line hline
    obtain ⟨c, hc, rfl⟩ := List.mem_map.1 hline
    exact ⟨_, (h.constraints c hc).plainLine⟩
  have hlinesOf := linesOf_plainLines hlines ⟨_, h.plainLine⟩
  rwa [List.flatMap_map] at hlinesOf

theorem spells_chars (h : p.Spellable) : Spells p.chars (.ok p) := by
  obtain ⟨lines, n, hnumbered, hspells⟩ :=
    exists_numbered h.constraints p.width_eq h.plainLine 1
  refine .problem (linesOf_chars h) hnumbered ?_ ?_ hspells
  · rintro rfl
    exact h.constraints_ne_nil (List.forall₂_nil_left_iff.1 hspells)
  · exact .objective rfl (by simpa using h.objective_ne_nil) (forall₂_numberWord h.objective)

theorem Spellable.read_text (h : p.Spellable) : read p.text = .ok p := by
  rw [read, text, String.toList_ofList]
  exact (spells_chars h).read_eq

theorem spellable_of_read {source : String} (h : read source = .ok p) : p.Spellable := by
  rw [read_iff] at h
  cases h with
  | problem _ _ hlines hobjective hconstraints =>
  cases hobjective with
  | objective _ hwords hnumbers =>
  exact {
    objective := finite_of_forall₂ hnumbers
    constraints := by
      intro c hc
      obtain ⟨line, hline⟩ := exists_right_of_forall₂ hconstraints.flip c hc
      cases hline with
      | constraint _ _ hcoefficients hrhs =>
      obtain ⟨n, -, -, hfinite⟩ := hrhs
      exact ⟨finite_of_forall₂ hcoefficients, hfinite⟩
    objective_ne_nil := fun hnil => hwords (List.forall₂_nil_right_iff.1 (hnil ▸ hnumbers))
    constraints_ne_nil := fun hnil => hlines (List.forall₂_nil_right_iff.1 (hnil ▸ hconstraints)) }

end Problem

/-! ### a line feed at the end -/

/-- what stands behind the last line feed means nothing if it is nothing -/
theorem Line.ofSource_concat_feed (source : List Char) :
    ofSource (source ++ ['\n']) = ofSource source := by
  have hpieces : pieces (· == '\n') (source ++ ['\n']) = pieces (· == '\n') source ++ [[]] :=
    pieces_append_cons rfl source []
  have hblank : ∀ number, ofText? number [] = none := fun _ => rfl
  simp only [ofSource, hpieces, List.zipIdx_append, List.filterMap_append, List.zipIdx_singleton,
    List.filterMap_cons, hblank, List.filterMap_nil, List.append_nil]

theorem Problem.read_append_feed (source : String) : read (source ++ "\n") = read source := by
  have hfeed : (source ++ "\n").toList = source.toList ++ ['\n'] := String.toList_append
  rw [read, read, hfeed, readChars, readChars, Line.ofSource_concat_feed]

/-! ### forms -/

namespace Constraint

variable {c d : Constraint Float}

theorem Finite.negated (h : c.Finite) : c.negated.Finite := by
  have hneg : ∀ x : Float, Double.isFinite x → Double.isFinite (-x) := by
    intro x hx
    rw [Double.isFinite_eq] at hx ⊢
    exact (ExactUnits.isFinite_neg : ExactUnits.IsFinite x → ExactUnits.IsFinite (-x)) hx
  exact ⟨List.forall_mem_map.2 fun x hx => hneg x (h.coefficients x hx), hneg _ h.rhs⟩

theorem Finite.turned (h : c.Finite) (hd : d = c ∨ d = c.negated) : d.Finite := by
  rcases hd with rfl | rfl
  · exact h
  · exact h.negated

theorem finite_of_slack {s : Float} (h : c.slack = some s) : Double.isFinite s := by
  rw [slack] at h
  split at h <;> cases h <;> decide +kernel

theorem finite_of_mem_zeros {n : Nat} : ∀ x ∈ List.replicate n (0 : Float), Double.isFinite x := by
  intro x hx
  rw [List.eq_of_mem_replicate hx]
  decide +kernel

theorem finite_withSlacks {cs : List (Constraint Float)} (h : ∀ c ∈ cs, c.Finite)
    (extra used : Nat) : ∀ d ∈ withSlacks extra used cs, d.Finite := by
  induction cs generalizing used with
  | nil => nofun
  | cons c cs ih =>
    obtain ⟨hc, hrest⟩ := List.forall_mem_cons.1 h
    have hrow : ∀ slacks : List Float, (∀ x ∈ slacks, Double.isFinite x) →
        Finite ⟨c.coefficients ++ slacks, .equal, c.rhs⟩ :=
      fun _ hslacks => ⟨List.forall_mem_append.2 ⟨hc.coefficients, hslacks⟩, hc.rhs⟩
    rw [withSlacks]
    split
    next s hs =>
      refine List.forall_mem_cons.2 ⟨hrow _ fun x hx => ?_, ih hrest (used + 1)⟩
      rcases List.mem_or_eq_of_mem_set hx with hx | rfl
      · exact finite_of_mem_zeros x hx
      · exact finite_of_slack hs
    next => exact List.forall_mem_cons.2 ⟨hrow _ finite_of_mem_zeros, ih hrest used⟩

end Constraint

namespace Problem

variable {p q : Problem Float}

theorem Spellable.equalities (h : p.Spellable) {orient : Constraint Float → Constraint Float}
    (hlen : ∀ c, (orient c).coefficients.length = c.coefficients.length)
    (horient : ∀ c, orient c = c ∨ orient c = c.negated) :
    (p.equalities orient hlen).Spellable where
  objective := List.forall_mem_append.2 ⟨h.objective, Constraint.finite_of_mem_zeros⟩
  constraints := by
    refine Constraint.finite_withSlacks (List.forall_mem_map.2 fun c hc => ?_) _ _
    exact (h.constraints c hc).turned (horient c)
  objective_ne_nil := List.append_ne_nil_of_left_ne_nil h.objective_ne_nil _
  constraints_ne_nil := by
    rw [← List.length_pos_iff]
    show 0 < (p.equalities orient hlen).constraintCount
    rw [constraintCount_equalities]
    exact List.length_pos_iff.2 h.constraints_ne_nil

theorem Spellable.turned (h : p.Spellable) : p.turned.Spellable where
  objective := h.objective
  constraints := List.forall_mem_map.2 fun c hc => (h.constraints c hc).turned (c.toward_turned _)
  objective_ne_nil := h.objective_ne_nil
  constraints_ne_nil := by simpa [Problem.turned] using h.constraints_ne_nil

theorem Spellable.transposed (h : p.Spellable) : p.transposed.Spellable where
  objective := List.forall_mem_map.2 fun c hc => (h.constraints c hc).rhs
  constraints := by
    intro d hd
    obtain ⟨j, hj, rfl⟩ := List.mem_mapIdx.1 hd
    refine ⟨List.forall_mem_map.2 fun c hc => ?_, h.objective _ (List.getElem_mem hj)⟩
    -- the column of a variable has an entry in every row
    rw [List.getD_eq_getElem _ _ (by rwa [p.width_eq c hc])]
    exact (h.constraints c hc).coefficients _ (List.getElem_mem _)
  objective_ne_nil := by simpa [Problem.transposed, rhs] using h.constraints_ne_nil
  constraints_ne_nil := by simpa [Problem.transposed] using h.objective_ne_nil

theorem Spellable.dual (h : p.Spellable) (hq : p.dual = .ok q) : q.Spellable := by
  rw [Problem.dual] at hq
  cases hprepared : p.prepared with
  | error e =>
    rw [hprepared] at hq
    cases hq
  | ok r =>
    rw [hprepared] at hq
    obtain rfl := eq_turned_of_prepared hprepared
    obtain rfl := Except.ok.inj hq
    exact h.turned.transposed

/-- The text of a problem reads back as the problem, all of its numbers bit for bit, exactly if the
problem can be spelled.  In particular that of a problem that was read does, and so do those of its
standard forms and of its dual. -/
theorem text_reads_back :
    (∀ p : Problem Float, read p.text = .ok p ↔ p.Spellable) ∧
      ∀ source p, read source = .ok p → read p.text = .ok p ∧
        read p.standardForm.text = .ok p.standardForm ∧
        read p.dualStandardForm.text = .ok p.dualStandardForm ∧
        ∀ q, p.dual = .ok q → read q.text = .ok q := by
  refine ⟨fun p => ⟨spellable_of_read, Spellable.read_text⟩, fun source p hread => ?_⟩
  have h := spellable_of_read hread
  exact ⟨h.read_text, (h.equalities _ withNonnegRhs_turned).read_text,
    (h.equalities _ asLessEqual_turned).read_text, fun q hq => (h.dual hq).read_text⟩

/-- numbers that are no doubles as they are written, and zeros of both signs -/
def tenths : Problem Float :=
  ⟨[0.1, -0.0], .minimize, [⟨[1, -2.5], .lessEqual, 1e-7⟩, ⟨[0, 1e22], .greaterEqual, -0.3⟩],
    by decide⟩

theorem text_reads_back_tenths :
    tenths.text = "1 -2.5 <= 0.0000001\n0 10000000000000000000000 >= -0.3\n0.1 -0 min" ∧
      read tenths.text = .ok tenths ∧ read tenths.standardForm.text = .ok tenths.standardForm ∧
      read tenths.dualStandardForm.text = .ok tenths.dualStandardForm ∧
      tenths.dual = .ok tenths.turned.transposed ∧
      read tenths.turned.transposed.text = .ok tenths.turned.transposed := by
  have hsource : read " +1 -25e-1 <= .1e-6 \n# rows\n0 1E22 >= -.3\n\n0.10 -0 min\n" =
      .ok tenths := by decide +kernel
  have hdual : tenths.dual = .ok tenths.turned.transposed := rfl
  obtain ⟨-, hstandard, hdualStandard, hdualText⟩ := text_reads_back.2 _ _ hsource
  have hrows : ∀ c ∈ tenths.constraints, (∀ x ∈ c.coefficients, Double.isFinite x) ∧
      Double.isFinite c.rhs := by decide +kernel
  have hspellable : tenths.Spellable :=
    ⟨by decide +kernel, fun c hc => ⟨(hrows c hc).1, (hrows c hc).2⟩, nofun, nofun⟩
  exact ⟨by decide +kernel, (text_reads_back.1 tenths).2 hspellable, hstandard, hdualStandard,
    hdual, hdualText _ hdual⟩

end Problem

end LinearProgram
