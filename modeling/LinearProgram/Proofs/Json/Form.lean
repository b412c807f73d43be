import LinearProgram.Json.Form
import LinearProgram.Proofs.Checked.Mismatch
import LinearProgram.Proofs.Json.Grammar

/-!
# What JSON holds is checked

If the number that is written for each finite double reads back as the double, then every form is
written so that JSON accepts it, and with finite numbers each of its fields reads back.  However
numbers are read, problems and tableaux are read as their fields first, of whatever lengths, and
then the lengths are compared, so that no text makes a problem or a tableau that is not rectangular.

* `NumberFormat.Lawful`       what is relied on of the numbers;
* `Json.asRecord?_record`     the fields of a record read back;
* `JsonForm.ReadsBack`        all texts of a value read as the value;
* `JsonForm.reads_back_and_checked`.
-/

namespace LinearProgram
open Checked

/-- What is relied on of the numbers: the one that is written for a finite double is a number of
JSON, and reads back as the double. -/
structure NumberFormat.Lawful (f : NumberFormat) : Prop where
  strict {x : Float} : Double.isFinite x → (f.write x).Strict
  read_write {x : Float} : Double.isFinite x → f.read? (f.write x) = some x

theorem NumberFormat.lawful_shortest : NumberFormat.shortest.Lawful where
  strict := Layout.exchange.strict_numeral
  read_write := Layout.exchange.double?_numeral

/-! ### finite values -/

/-- all numbers are finite; there may be no rows, and no variables -/
structure Parts.Finite (p : Parts Float) : Prop where
  objective : ∀ x ∈ p.objective, Double.isFinite x
  matrix : ∀ row ∈ p.matrix, ∀ x ∈ row, Double.isFinite x
  rhs : ∀ x ∈ p.rhs, Double.isFinite x

/-- all entries are finite -/
def Tableau.Finite (t : Tableau Float) : Prop := ∀ row ∈ t.rows, ∀ x ∈ row, Double.isFinite x

/-- all values are finite, and the objective -/
structure Solution.Finite (s : Solution Float) : Prop where
  values : ∀ x ∈ s.values, Double.isFinite x
  objective : Double.isFinite s.objectiveValue

namespace Json

variable {f : NumberFormat}

/-! ### what is written -/

theorem writable_ofDouble (hf : f.Lawful) (x : Float) : Writable (ofDouble f x) := by
  rw [ofDouble]
  split
  next hfinite => exact .number (hf.strict hfinite)
  next => exact .null

theorem writable_names (text : String) : Writable (names text) := .string _

theorem writable_map {β : Type} {write : β → Json} (h : ∀ b, Writable (write b)) (l : List β) :
    Writable (array (l.map write)) :=
  .array (List.forall_mem_map.2 fun b _ => h b)

theorem writable_doubles (hf : f.Lawful) (xs : List Float) : Writable (doubles f xs) :=
  writable_map (writable_ofDouble hf) xs

theorem writable_grid (hf : f.Lawful) (rows : List (List Float)) : Writable (grid f rows) :=
  writable_map (writable_doubles hf) rows

theorem writable_record {fields : List (String × Json)} (h : ∀ field ∈ fields, Writable field.2) :
    Writable (record fields) :=
  .object (List.forall_mem_map.2 h)

theorem writable_count (n : Nat) : Writable (count n) := .number (strict_digitChars n)

/-! ### what reads back -/

theorem asDouble?_ofDouble (hf : f.Lawful) {x : Float} (hfinite : Double.isFinite x) :
    (ofDouble f x).asDouble? f = some x := by
  rw [ofDouble, if_pos hfinite]
  exact hf.read_write hfinite

theorem asList?_map {β : Type} {write : β → Json} {item? : Json → Option β} {l : List β}
    (h : ∀ b ∈ l, item? (write b) = some b) : (array (l.map write)).asList? item? = some l := by
  have hitems := mapM_eq_some (f := item? ∘ write) (g := id) h
  rw [List.map_id] at hitems
  rw [asList?, List.mapM_map]
  exact hitems

theorem asList?_doubles (hf : f.Lawful) {xs : List Float} (hfinite : ∀ x ∈ xs, Double.isFinite x) :
    (doubles f xs).asList? (asDouble? f) = some xs :=
  asList?_map fun x hx => asDouble?_ofDouble hf (hfinite x hx)

theorem asList?_grid (hf : f.Lawful) {rows : List (List Float)}
    (hfinite : ∀ row ∈ rows, ∀ x ∈ row, Double.isFinite x) :
    (grid f rows).asList? (asList? (asDouble? f)) = some rows :=
  asList?_map fun row hrow => asList?_doubles hf (hfinite row hrow)

theorem asName?_names (text : String) : (names text).asName? = some text := by
  rw [names, asName?, String.ofList_toList]

/-- a name that occurs once is the name of one field -/
theorem filter_name {fields : List (String × Json)} (hnodup : (fields.map Prod.fst).Nodup)
    {field : String × Json} (hmem : field ∈ fields) :
    fields.filter (fun other => other.1.toList == field.1.toList) = [field] := by
  induction fields with
  | nil => exact absurd hmem List.not_mem_nil
  | cons first fields ih =>
    obtain ⟨hnew, hnodup⟩ := List.nodup_cons.1 hnodup
    rcases List.mem_cons.1 hmem with rfl | hmem
    · rw [List.filter_cons, if_pos (beq_self_eq_true _), List.filter_eq_nil_iff.2]
      intro other hother heq
      rw [← String.toList_inj.1 (beq_iff_eq.1 heq)] at hnew
      exact hnew (List.mem_map_of_mem hother)
    · rw [List.filter_cons_of_neg, ih hnodup hmem]
      intro heq
      rw [String.toList_inj.1 (beq_iff_eq.1 heq)] at hnew
      exact hnew (List.mem_map_of_mem hmem)

/-- the fields of a record read back -/
theorem asRecord?_record {fields : List (String × Json)} {wanted : List String}
    (hwanted : fields.map Prod.fst = wanted) (hnodup : wanted.Nodup) :
    (record fields).asRecord? wanted = some (fields.map Prod.snd) := by
  subst hwanted
  rw [record, asRecord?, List.mapM_map]
  refine mapM_eq_some fun field hmem => ?_
  have hone := filter_name hnodup hmem
  simp only [Function.comp_def, List.filter_map, hone, List.map_cons, List.map_nil]

end Json

namespace JsonForm
open Json

/-! ### the fields of problems, tableaux and solutions -/

theorem sense?_names (s : Sense) : sense? (names s.name) = some s := by
  rw [sense?, asName?_names]
  exact Sense.ofName?_eq_some_iff.2 rfl

theorem asList?_relations (rs : List Relation) :
    (array (rs.map fun r => names r.name)).asList? relation? = some rs :=
  asList?_map fun r _ => by
    rw [relation?, asName?_names]
    exact Relation.ofName?_eq_some_iff.2 rfl

/-! ### finite values read back -/

section
variable {f : NumberFormat} (hf : f.Lawful)
include hf

theorem parts?_ofParts {p : Parts Float} (hfinite : p.Finite) :
    parts? f (ofParts f p) = some p := by
  have hrecord : (ofParts f p).asRecord? problemFields = some [doubles f p.objective,
      names p.sense.name, grid f p.matrix, doubles f p.rhs,
      array (p.relations.map fun r => names r.name)] := asRecord?_record rfl (by decide)
  simp only [parts?, hrecord, asList?_doubles hf hfinite.objective, asList?_doubles hf hfinite.rhs,
    asList?_grid hf hfinite.matrix, sense?_names, asList?_relations, Option.bind_some,
    Option.map_some]

theorem rows?_write {t : Tableau Float} (hfinite : t.Finite) :
    rows? f (write f t) = some (t.rows, t.sense) := by
  have hrecord : (write f t).asRecord? tableauFields = some [grid f t.rows, names t.sense.name] :=
    asRecord?_record rfl (by decide)
  simp only [rows?, hrecord, asList?_grid hf hfinite, sense?_names, Option.bind_some,
    Option.map_some]

theorem read_problem {p : Problem Float} (hfinite : p.parts.Finite) :
    read f (write f p) = .ok p := by
  have hread : problem? f (ofParts f p.parts) = some (.ok p) := by
    rw [problem?, parts?_ofParts hf hfinite, Option.map_some]
    exact congrArg some (Problem.ofParts_parts p)
  exact congrArg checked hread

theorem read_tableau {t : Tableau Float} (hfinite : t.Finite) : read f (write f t) = .ok t := by
  have hread : tableau? f (write f t) = some (.ok t) := by
    rw [tableau?, rows?_write hf hfinite, Option.map_some]
    exact congrArg some (Tableau.ofRows_rows t)
  exact congrArg checked hread

theorem read_solution {s : Solution Float} (hfinite : s.Finite) : read f (write f s) = .ok s := by
  have hrecord : (write f s).asRecord? solutionFields =
      some [doubles f s.values, ofDouble f s.objectiveValue] := asRecord?_record rfl (by decide)
  have hread : solution? f (write f s) = some s := by
    simp only [solution?, hrecord, asList?_doubles hf hfinite.values,
      asDouble?_ofDouble hf hfinite.objective, Option.bind_some, Option.map_some]
  simp only [read, plain, hread]

/-! ### documents -/

theorem writable_ofParts (p : Parts Float) : Writable (ofParts f p) := by
  refine writable_record ?_
  simp only [List.forall_mem_cons]
  exact ⟨writable_doubles hf _, writable_names _, writable_grid hf _, writable_doubles hf _,
    writable_map (fun r : Relation => writable_names r.name) _, nofun⟩

theorem writable_tableau (t : Tableau Float) : Writable (write f t) := by
  refine writable_record ?_
  simp only [List.forall_mem_cons]
  exact ⟨writable_grid hf _, writable_names _, nofun⟩

theorem writable_solution (s : Solution Float) : Writable (write f s) := by
  refine writable_record ?_
  simp only [List.forall_mem_cons]
  exact ⟨writable_doubles hf _, writable_ofDouble hf _, nofun⟩

end

/-- what a step shows has a text that JSON accepts, whatever its numbers are -/
theorem writable_snapshot (x : Snapshot Float) : Writable x.toJson := by
  have hf := NumberFormat.lawful_shortest
  cases x with
  | problem p => exact writable_record (List.forall_mem_singleton.2 (writable_ofParts hf p.parts))
  | solution s => exact writable_record (List.forall_mem_singleton.2 (writable_solution hf s))
  | tableau t =>
    refine writable_record (List.forall_mem_singleton.2 (writable_record ?_))
    simp only [List.forall_mem_cons]
    exact ⟨writable_tableau hf _, writable_map writable_count _, nofun⟩

/-- Both texts of the value that are written read as the value, and so does every other text that
spells its form, wherever its blanks stand. -/
def ReadsBack (f : NumberFormat) {α : Type} [JsonForm α] (a : α) : Prop :=
  readWith f α (write f a).compact = .ok a ∧ readWith f α (write f a).pretty = .ok a ∧
    ∀ text, Spells text (write f a) → readWith f α text = .ok a

section
variable {f : NumberFormat} {α : Type} [JsonForm α] {text rest : List Char} {v : Json}

/-- a text of a value holds what the value holds -/
theorem readWith_of_spells (h : Spells text v) : readWith f α text = read f v := by
  have hfront := h.readFront_eq numberEnds_nil
  rw [List.append_nil] at hfront
  rw [readWith, hfront]
  dsimp only
  cases (read f v : Except JsonError α) <;> rfl

theorem readsBack_of_read {a : α} (hwritable : Writable (write f a))
    (h : read f (write f a) = .ok a) : ReadsBack f a := by
  have hall : ∀ text, Spells text (write f a) → readWith f α text = .ok a := by
    intro text htext
    rw [readWith_of_spells htext, h]
  exact ⟨hall _ hwritable.spells_compact, hall _ hwritable.spells_pretty, hall⟩

/-- what is accepted is held by the value in front, and only blanks stand behind it -/
theorem readWith_eq_ok_iff {a : α} : readWith f α text = .ok a ↔
    ∃ v rest, readFront text = some (v, rest) ∧ read f v = .ok a ∧ skipSpace rest = [] := by
  rw [readWith]
  cases readFront text with
  | none => simp
  | some front =>
    obtain ⟨v, rest⟩ := front
    cases hv : (read f v : Except JsonError α) with
    | error e => simp [hv]
    | ok b =>
      by_cases hrest : skipSpace rest = [] <;> simp [hv, hrest]

/-- what the value in front does not hold is refused, whatever stands behind it -/
theorem readWith_eq_error {e : JsonError} (hfront : readFront text = some (v, rest))
    (h : (read f v : Except JsonError α) = .error e) : readWith f α text = .error e := by
  rw [readWith, hfront]
  dsimp only
  rw [h]

end

/-! ### problems and tableaux -/

section
variable {f : NumberFormat} {text rest : List Char} {v : Json}

theorem checked_eq_ok_iff {α : Type} {a : α} {read : Option (Except (Failure Float) α)} :
    checked read = .ok a ↔ read = some (.ok a) := by
  cases read with
  | none => simp [checked]
  | some result => cases result <;> simp [checked]

/-- an accepted text holds the parts of the problem -/
theorem parts?_of_readWith {p : Problem Float} (h : readWith f (Problem Float) text = .ok p) :
    ∃ v rest, readFront text = some (v, rest) ∧ parts? f v = some p.parts := by
  obtain ⟨v, rest, hfront, hv, -⟩ := readWith_eq_ok_iff.1 h
  obtain ⟨parts, hparts, hof⟩ := Option.map_eq_some_iff.1 (checked_eq_ok_iff.1 hv)
  obtain ⟨ho, hs, hm, hb, hr⟩ := Problem.parts_of_ofParts hof
  refine ⟨v, rest, hfront, ?_⟩
  rw [Problem.parts, ho, hs, hm, hb, hr, hparts]

/-- and an accepted text of a tableau its rows -/
theorem rows?_of_readWith {t : Tableau Float} (h : readWith f (Tableau Float) text = .ok t) :
    ∃ v rest, readFront text = some (v, rest) ∧ rows? f v = some (t.rows, t.sense) := by
  obtain ⟨v, rest, hfront, hv, -⟩ := readWith_eq_ok_iff.1 h
  obtain ⟨fields, hfields, hof⟩ := Option.map_eq_some_iff.1 (checked_eq_ok_iff.1 hv)
  obtain ⟨hr, hs⟩ := Tableau.rows_of_ofRows hof
  refine ⟨v, rest, hfront, ?_⟩
  rw [hr, hs, hfields]

/-- parts that disagree are refused for the first length that does -/
theorem readWith_of_mismatch {p : Parts Float} {what : Dimension} {expected found : Nat}
    (hfront : readFront text = some (v, rest)) (hparts : parts? f v = some p)
    (h : p.Mismatch what expected found) : readWith f (Problem Float) text =
      .error (.inconsistent (.dimensionMismatch what expected found)) := by
  have hread : problem? f v = some (.error (.dimensionMismatch what expected found)) := by
    rw [problem?, hparts, Option.map_some, h.ofParts_eq]
  exact readWith_eq_error hfront (congrArg checked hread)

theorem readWith_of_rowsMismatch {rows : List (List Float)} {sense : Sense} {expected found : Nat}
    (hfront : readFront text = some (v, rest)) (hrows : rows? f v = some (rows, sense))
    (h : RowsMismatch rows expected found) : readWith f (Tableau Float) text =
      .error (.inconsistent (.dimensionMismatch .tableauColumns expected found)) := by
  have hread : tableau? f v =
      some (.error (.dimensionMismatch .tableauColumns expected found)) := by
    rw [tableau?, hrows]
    exact congrArg some (h.ofRows_eq sense)
  exact readWith_eq_error hfront (congrArg checked hread)

end

/-- If the number that is written for each finite double reads back as the double, then problems,
tableaux and solutions of finite numbers read back from their texts.  However numbers are read, a
text that is accepted holds the fields of the problem or the tableau, which are rectangular, and a
text that holds fields which are not is refused for the first of their lengths that disagrees, as
the fields themselves are, whatever stands behind them. -/
theorem reads_back_and_checked (f : NumberFormat) :
    (f.Lawful → (∀ p : Problem Float, p.parts.Finite → ReadsBack f p) ∧
      (∀ t : Tableau Float, t.Finite → ReadsBack f t) ∧
      ∀ s : Solution Float, s.Finite → ReadsBack f s) ∧
    (∀ text, (∀ p, readWith f (Problem Float) text = .ok p → p.parts.Rectangular ∧
        ∃ v rest, readFront text = some (v, rest) ∧ parts? f v = some p.parts) ∧
      ∀ t, readWith f (Tableau Float) text = .ok t → RectangularRows t.rows ∧
        ∃ v rest, readFront text = some (v, rest) ∧ rows? f v = some (t.rows, t.sense)) ∧
    ∀ text v rest, readFront text = some (v, rest) →
      (∀ p, parts? f v = some p → ¬ p.Rectangular → ∃ what expected found,
        p.Mismatch what expected found ∧
        Problem.ofParts p.objective p.sense p.matrix p.rhs p.relations =
          .error (.dimensionMismatch what expected found) ∧
        readWith f (Problem Float) text =
          .error (.inconsistent (.dimensionMismatch what expected found))) ∧
      ∀ rows sense, rows? f v = some (rows, sense) → ¬ RectangularRows rows → ∃ expected found,
        RowsMismatch rows expected found ∧
        Tableau.ofRows rows sense = .error (.dimensionMismatch .tableauColumns expected found) ∧
        readWith f (Tableau Float) text =
          .error (.inconsistent (.dimensionMismatch .tableauColumns expected found)) := by
  refine ⟨fun hf => ⟨fun p hp => ?_, fun t ht => ?_, fun s hs => ?_⟩,
    fun text => ⟨fun p hp => ?_, fun t ht => ?_⟩,
    fun text v rest hfront => ⟨fun p hp hnot => ?_, fun rows sense hrows hnot => ?_⟩⟩
  · exact readsBack_of_read (writable_ofParts hf p.parts) (read_problem hf hp)
  · exact readsBack_of_read (writable_tableau hf t) (read_tableau hf ht)
  · exact readsBack_of_read (writable_solution hf s) (read_solution hf hs)
  · exact ⟨Parts.rectangular_parts p, parts?_of_readWith hp⟩
  · exact ⟨t.rectangular_rows, rows?_of_readWith ht⟩
  · obtain ⟨what, expected, found, h⟩ := Parts.exists_mismatch_iff.2 hnot
    exact ⟨what, expected, found, h, h.ofParts_eq, readWith_of_mismatch hfront hp h⟩
  · obtain ⟨expected, found, h⟩ := exists_rowsMismatch_iff.2 hnot
    exact ⟨expected, found, h, h.ofRows_eq sense, readWith_of_rowsMismatch hfront hrows h⟩

/-- a zero of each sign, and a number with a power of ten -/
def tinyProblem : Problem Float :=
  ⟨[-0.0, 1e-20], .minimize, [⟨[0.0, 2.5], .greaterEqual, -0.0⟩], by decide⟩

/-- a row that is wider than the objective, after one that is not -/
def unevenParts : Parts Float :=
  ⟨[1], .maximize, [[1], [-0.0, 2]], [3, 4], [.equal, .lessEqual]⟩

/-- with the shortest digits, read to the nearest double -/
theorem reads_back_and_checked_tinyProblem :
    NumberFormat.shortest.Lawful ∧
    readAs (Problem Float) (toJson tinyProblem).pretty = .ok tinyProblem ∧
    readAs (Problem Float) (ofParts .shortest unevenParts).pretty =
      .error (.inconsistent (.dimensionMismatch .constraintColumns 1 2)) := by
  have hf := NumberFormat.lawful_shortest
  have hfinite : tinyProblem.parts.Finite :=
    ⟨by decide +kernel, by decide +kernel, by decide +kernel⟩
  have huneven : unevenParts.Finite := ⟨by decide +kernel, by decide +kernel, by decide +kernel⟩
  have hfront := (writable_ofParts hf unevenParts).spells_pretty.readFront_eq numberEnds_nil
  rw [List.append_nil] at hfront
  obtain ⟨what, expected, found, -, hof, hread⟩ := ((reads_back_and_checked _).2.2 _ _ _ hfront).1
    unevenParts (parts?_ofParts hf huneven) (by decide)
  have hmismatch : Problem.ofParts unevenParts.objective unevenParts.sense unevenParts.matrix
      unevenParts.rhs unevenParts.relations =
      .error (.dimensionMismatch .constraintColumns 1 2) := rfl
  rw [hmismatch] at hof
  cases hof
  exact ⟨hf, (((reads_back_and_checked _).1 hf).1 tinyProblem hfinite).2.1, hread⟩

end JsonForm

end LinearProgram
