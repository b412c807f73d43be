import LinearProgram.Proofs.Decimal.Text
import LinearProgram.Proofs.Solver.Messages

/-!
# What a line of the log tells

Lines of different kinds start with different words, none of which is the start of another.  What
follows tells all that the record holds: numbers, steps, the failure, and each entry of a tableau.
So a line is that of one record, but for the sense of a tableau and its basis, which no line names.

* `Heading`, `Heading.text`     the words that lines start with;
* `Event.line_eq`               a line as its heading and what follows;
* `Event.Worded`                what each line tells, and `Event.worded`;
* `logLines_trace`              a log of all levels has a line for each record.
-/

namespace LinearProgram

/-- what a line says before its first number or step -/
inductive Heading where
  | standardised
  | dualBuilt
  | initialTableau
  | pivotChosen (method : Method)
  | pivoted
  | stepped (method : Method)
  | failed (method : Method)
  | solving
  deriving DecidableEq

namespace Heading

def text : Heading → String
  | standardised => "DEBUG standardised "
  | dualBuilt => "DEBUG built dual: "
  | initialTableau => "TRACE initial tableau: "
  | pivotChosen m => "DEBUG " ++ m.name ++ " pivot: "
  | pivoted => "TRACE tableau after iteration "
  | stepped m => "DEBUG " ++ m.name ++ " solver: "
  | failed m => "WARN " ++ m.name ++ " solver failed at "
  | solving => "INFO solving with the "

def all : List Heading :=
  [standardised, dualBuilt, initialTableau, pivotChosen .primal, pivotChosen .dual, pivoted,
    stepped .primal, stepped .dual, failed .primal, failed .dual, solving]

theorem mem_all (h : Heading) : h ∈ all := by
  cases h with
  | pivotChosen m => cases m <;> decide
  | stepped m => cases m <;> decide
  | failed m => cases m <;> decide
  | _ => decide

/-- no heading is the start of another one -/
theorem eq_of_text_append {h h' : Heading} {x y : String} (heq : h.text ++ x = h'.text ++ y) :
    h = h' ∧ x = y :=
  LinearProgram.eq_of_text_append text mem_all (by decide +kernel) heq

end Heading

/-- no step is named by the start of the name of another one -/
theorem Step.eq_of_name_append {s s' : Step} {x y : String} (h : s.name ++ x = s'.name ++ y) :
    s = s' ∧ x = y :=
  eq_of_text_append name mem_all (by decide +kernel) h

theorem Method.eq_of_name_append {m m' : Method} {x y : String} (h : m.name ++ x = m'.name ++ y) :
    m = m' ∧ x = y :=
  eq_of_text_append name mem_all (by decide +kernel) h

namespace Event

def heading {α : Type} : Event α → Heading
  | standardised .. => .standardised
  | dualBuilt .. => .dualBuilt
  | initialTableau _ => .initialTableau
  | pivotChosen m _ _ => .pivotChosen m
  | pivoted .. => .pivoted
  | stepped m _ _ => .stepped m
  | failed m _ _ => .failed m
  | solving _ => .solving

/-- the line of a record after its heading -/
def details : Event Float → String
  | standardised rows before after =>
    toString rows ++ (" constraints: " ++ (toString before ++ (" variables -> " ++ toString after)))
  | dualBuilt columns rows sense =>
    toString columns ++ (" variables x " ++
      (toString rows ++ (" constraints, sense " ++ sense.symbol)))
  | initialTableau t => gridText t.rows
  | pivotChosen .primal row column =>
    "column " ++ (toString column ++ (" enters, row " ++ (toString row ++ " leaves")))
  | pivotChosen .dual row column =>
    "row " ++ (toString row ++ (" leaves, column " ++ (toString column ++ " enters")))
  | pivoted iteration t => toString iteration ++ (": " ++ gridText t.rows)
  | stepped _ before after => before.name ++ (" -> " ++ after.name)
  | failed _ during failure => during.name ++ (": " ++ failure.message Layout.plain.text)
  | solving m => m.name ++ " simplex method"

/-- a line that starts with a heading, from a message that starts with the words of the heading -/
theorem line_of_message {level heading message rest : String} (start : String)
    (hheading : heading = level ++ (" " ++ start)) (hmessage : message = start ++ rest) :
    level ++ " " ++ message = heading ++ rest := by
  rw [hheading, hmessage]
  simp only [String.append_assoc]

theorem line_eq (e : Event Float) : e.line = e.heading.text ++ e.details := by
  cases e with
  | standardised rows before after =>
    refine line_of_message "standardised " rfl ?_
    show "standardised " ++ toString rows ++ " constraints: " ++ toString before ++
      " variables -> " ++ toString after = _
    simp only [String.append_assoc]
    rfl
  | dualBuilt columns rows sense =>
    refine line_of_message "built dual: " rfl ?_
    show "built dual: " ++ toString columns ++ " variables x " ++ toString rows ++
      " constraints, sense " ++ sense.symbol = _
    simp only [String.append_assoc]
    rfl
  | initialTableau t => exact line_of_message "initial tableau: " rfl rfl
  | pivotChosen m row column =>
    cases m with
    | primal =>
      refine line_of_message "primal pivot: " rfl ?_
      show "primal pivot: " ++ "column " ++ toString column ++ " enters, row " ++ toString row ++
        " leaves" = _
      simp only [String.append_assoc]
      rfl
    | dual =>
      refine line_of_message "dual pivot: " rfl ?_
      show "dual pivot: " ++ "row " ++ toString row ++ " leaves, column " ++ toString column ++
        " enters" = _
      simp only [String.append_assoc]
      rfl
  | pivoted iteration t =>
    refine line_of_message "tableau after iteration " rfl ?_
    show "tableau after iteration " ++ toString iteration ++ ": " ++ gridText t.rows = _
    simp only [String.append_assoc]
    rfl
  | stepped m before after =>
    refine line_of_message (m.name ++ " solver: ") (by cases m <;> rfl) ?_
    show m.name ++ " solver: " ++ before.name ++ " -> " ++ after.name = _
    simp only [String.append_assoc]
    rfl
  | failed m during failure =>
    refine line_of_message (m.name ++ " solver failed at ") (by cases m <;> rfl) ?_
    show m.name ++ " solver failed at " ++ during.name ++ ": " ++
      failure.message Layout.plain.text = _
    simp only [String.append_assoc]
    rfl
  | solving m =>
    refine line_of_message "solving with the " rfl ?_
    show "solving with the " ++ m.name ++ " simplex method" = _
    rw [String.append_assoc]
    rfl

variable {e e' : Event Float}

/-- the heading of a record and the rest of its line are read off the line -/
theorem heading_details {h : Heading} {rest : String} (hline : e.line = h.text ++ rest) :
    e.heading = h ∧ e.details = rest :=
  Heading.eq_of_text_append (e.line_eq.symm.trans hline)

/-- the start of a line tells the kind of its record -/
theorem heading_eq_iff {h : Heading} : e.heading = h ↔ ∃ rest, e.line = h.text ++ rest := by
  constructor
  · rintro rfl
    exact ⟨_, e.line_eq⟩
  · rintro ⟨rest, hline⟩
    exact (heading_details hline).1

/-- a record is read off its line if it is read off its heading and the rest of the line -/
theorem eq_iff_line {text : String} (htext : e'.heading.text ++ e'.details = text)
    (hdetails : e.heading = e'.heading → e.details = e'.details → e = e') :
    e = e' ↔ e.line = text := by
  constructor
  · rintro rfl
    exact e.line_eq.trans htext
  · intro hline
    obtain ⟨hheading, hrest⟩ := heading_details (hline.trans htext.symm)
    exact hdetails hheading hrest

/-! ### records without a tableau -/

theorem standardised_iff_line {rows before after : Nat} : e = .standardised rows before after ↔
    e.line = s!"DEBUG standardised {rows} constraints: {before} variables -> {after}" := by
  refine eq_iff_line ?_ fun hheading hdetails => ?_
  · show "DEBUG standardised " ++ _ = "DEBUG standardised " ++ toString rows ++ " constraints: " ++
      toString before ++ " variables -> " ++ toString after
    simp only [String.append_assoc]
    rfl
  · cases e with
    | standardised =>
      obtain ⟨rfl, hcolumns⟩ := toString_append_inj " constraints: " rfl rfl hdetails
      obtain ⟨rfl, hafter⟩ := toString_append_inj " variables -> " rfl rfl hcolumns
      rw [Nat.repr_injective hafter]
    | _ => cases hheading

theorem dualBuilt_iff_line {columns rows : Nat} {sense : Sense} :
    e = .dualBuilt columns rows sense ↔ e.line =
      s!"DEBUG built dual: {columns} variables x {rows} constraints, sense {sense.symbol}" := by
  refine eq_iff_line ?_ fun hheading hdetails => ?_
  · show "DEBUG built dual: " ++ _ = "DEBUG built dual: " ++ toString columns ++ " variables x " ++
      toString rows ++ " constraints, sense " ++ sense.symbol
    simp only [String.append_assoc]
    rfl
  · cases e with
    | dualBuilt =>
      obtain ⟨rfl, hrows⟩ := toString_append_inj " variables x " rfl rfl hdetails
      obtain ⟨rfl, hsense⟩ := toString_append_inj " constraints, sense " rfl rfl hrows
      rw [Sense.symbol_inj hsense]
    | _ => cases hheading

theorem pivotChosen_primal_iff_line {row column : Nat} : e = .pivotChosen .primal row column ↔
    e.line = s!"DEBUG primal pivot: column {column} enters, row {row} leaves" := by
  refine eq_iff_line ?_ fun hheading hdetails => ?_
  · have hstart : "DEBUG primal pivot: column " =
        "DEBUG " ++ "primal" ++ " pivot: " ++ "column " := rfl
    show "DEBUG " ++ "primal" ++ " pivot: " ++ _ = "DEBUG primal pivot: column " ++
      toString column ++ " enters, row " ++ toString row ++ " leaves"
    rw [hstart]
    simp only [String.append_assoc]
    rfl
  · cases e with
    | pivotChosen m =>
      obtain rfl : m = .primal := Heading.pivotChosen.inj hheading
      have hnumbers := (String.append_right_inj _).1 hdetails
      obtain ⟨rfl, hrow⟩ := toString_append_inj " enters, row " rfl rfl hnumbers
      rw [Nat.repr_injective ((String.append_left_inj _).1 hrow)]
    | _ => cases hheading

theorem pivotChosen_dual_iff_line {row column : Nat} : e = .pivotChosen .dual row column ↔
    e.line = s!"DEBUG dual pivot: row {row} leaves, column {column} enters" := by
  refine eq_iff_line ?_ fun hheading hdetails => ?_
  · have hstart : "DEBUG dual pivot: row " = "DEBUG " ++ "dual" ++ " pivot: " ++ "row " := rfl
    show "DEBUG " ++ "dual" ++ " pivot: " ++ _ = "DEBUG dual pivot: row " ++ toString row ++
      " leaves, column " ++ toString column ++ " enters"
    rw [hstart]
    simp only [String.append_assoc]
    rfl
  · cases e with
    | pivotChosen m =>
      obtain rfl : m = .dual := Heading.pivotChosen.inj hheading
      have hnumbers := (String.append_right_inj _).1 hdetails
      obtain ⟨rfl, hcolumn⟩ := toString_append_inj " leaves, column " rfl rfl hnumbers
      rw [Nat.repr_injective ((String.append_left_inj _).1 hcolumn)]
    | _ => cases hheading

theorem stepped_iff_line {m : Method} {before after : Step} : e = .stepped m before after ↔
    e.line = s!"DEBUG {m.name} solver: {before.name} -> {after.name}" := by
  refine eq_iff_line ?_ fun hheading hdetails => ?_
  · show "DEBUG " ++ m.name ++ " solver: " ++ _ = "DEBUG " ++ m.name ++ " solver: " ++
      before.name ++ " -> " ++ after.name
    simp only [String.append_assoc]
    rfl
  · cases e with
    | stepped =>
      obtain rfl := Heading.stepped.inj hheading
      obtain ⟨rfl, hafter⟩ := Step.eq_of_name_append hdetails
      rw [Step.name_inj ((String.append_right_inj _).1 hafter)]
    | _ => cases hheading

theorem failed_iff_line {m : Method} {during : Step} {failure : Failure Float} :
    e = .failed m during failure ↔ e.line = s!"WARN {m.name} solver failed at {during.name}: " ++
      failure.message Layout.plain.text := by
  refine eq_iff_line ?_ fun hheading hdetails => ?_
  · show "WARN " ++ m.name ++ " solver failed at " ++ _ = "WARN " ++ m.name ++
      " solver failed at " ++ during.name ++ ": " ++ failure.message Layout.plain.text
    simp only [String.append_assoc]
    rfl
  · cases e with
    | failed =>
      obtain rfl := Heading.failed.inj hheading
      obtain ⟨rfl, hmessage⟩ := Step.eq_of_name_append hdetails
      rw [Failure.message_inj Layout.plain.text_injective ((String.append_right_inj _).1 hmessage)]
    | _ => cases hheading

theorem solving_iff_line {m : Method} : e = .solving m ↔
    e.line = s!"INFO solving with the {m.name} simplex method" := by
  refine eq_iff_line ?_ fun hheading hdetails => ?_
  · show "INFO solving with the " ++ _ = "INFO solving with the " ++ m.name ++ " simplex method"
    rw [String.append_assoc]
    rfl
  · cases e with
    | solving => rw [(Method.eq_of_name_append hdetails).1]
    | _ => cases hheading

/-! ### tableaux -/

section
variable {rows : List (List Float)}

theorem initialTableau_iff_line : (∃ t, e = .initialTableau t ∧ t.rows = rows) ↔
    ∃ text, e.line = "TRACE initial tableau: " ++ text ∧ ShowsGrid text rows := by
  constructor
  · rintro ⟨t, rfl, rfl⟩
    exact ⟨_, line_eq _, showsGrid_gridText _⟩
  · rintro ⟨text, hline, htext⟩
    obtain ⟨hheading, hdetails⟩ : e.heading = .initialTableau ∧ e.details = text :=
      heading_details hline
    cases e with
    | initialTableau t =>
      obtain rfl : gridText t.rows = text := hdetails
      exact ⟨t, rfl, (showsGrid_gridText _).unique htext⟩
    | _ => cases hheading

theorem pivoted_iff_line {iteration : Nat} : (∃ t, e = .pivoted iteration t ∧ t.rows = rows) ↔
    ∃ text, e.line = s!"TRACE tableau after iteration {iteration}: " ++ text ∧
      ShowsGrid text rows := by
  have hstart : ∀ text, s!"TRACE tableau after iteration {iteration}: " ++ text =
      "TRACE tableau after iteration " ++ (toString iteration ++ (": " ++ text)) := by
    intro text
    show "TRACE tableau after iteration " ++ toString iteration ++ ": " ++ text = _
    simp only [String.append_assoc]
  constructor
  · rintro ⟨t, rfl, rfl⟩
    exact ⟨_, (line_eq _).trans (hstart _).symm, showsGrid_gridText _⟩
  · rintro ⟨text, hline, htext⟩
    obtain ⟨hheading, hdetails⟩ : e.heading = .pivoted ∧
        e.details = toString iteration ++ (": " ++ text) := heading_details (hline.trans (hstart _))
    cases e with
    | pivoted iteration' t =>
      obtain ⟨rfl, hgrid⟩ := toString_append_inj ": " rfl rfl hdetails
      obtain rfl : gridText t.rows = text := hgrid
      exact ⟨t, rfl, (showsGrid_gridText _).unique htext⟩
    | _ => cases hheading

end

/-- The line of a record tells its kind and all that it holds, each entry of a tableau included. -/
structure Worded (e : Event Float) : Prop where
  heading : ∀ h : Heading, e.heading = h ↔ ∃ rest, e.line = h.text ++ rest
  standardised : ∀ rows before after : Nat, e = .standardised rows before after ↔
    e.line = s!"DEBUG standardised {rows} constraints: {before} variables -> {after}"
  dualBuilt : ∀ (columns rows : Nat) (sense : Sense), e = .dualBuilt columns rows sense ↔
    e.line = s!"DEBUG built dual: {columns} variables x {rows} constraints, sense {sense.symbol}"
  initialTableau : ∀ rows, (∃ t, e = .initialTableau t ∧ t.rows = rows) ↔
    ∃ text, e.line = "TRACE initial tableau: " ++ text ∧ ShowsGrid text rows
  chosenByPrimal : ∀ row column : Nat, e = .pivotChosen .primal row column ↔
    e.line = s!"DEBUG primal pivot: column {column} enters, row {row} leaves"
  chosenByDual : ∀ row column : Nat, e = .pivotChosen .dual row column ↔
    e.line = s!"DEBUG dual pivot: row {row} leaves, column {column} enters"
  pivoted : ∀ (iteration : Nat) rows, (∃ t, e = .pivoted iteration t ∧ t.rows = rows) ↔
    ∃ text, e.line = s!"TRACE tableau after iteration {iteration}: " ++ text ∧ ShowsGrid text rows
  stepped : ∀ (m : Method) (before after : Step), e = .stepped m before after ↔
    e.line = s!"DEBUG {m.name} solver: {before.name} -> {after.name}"
  failed : ∀ (m : Method) (during : Step) (failure : Failure Float), e = .failed m during failure ↔
    e.line = s!"WARN {m.name} solver failed at {during.name}: " ++ failure.message Layout.plain.text
  solving : ∀ m : Method, e = .solving m ↔
    e.line = s!"INFO solving with the {m.name} simplex method"

theorem worded (e : Event Float) : Worded e where
  heading _ := heading_eq_iff
  standardised _ _ _ := standardised_iff_line
  dualBuilt _ _ _ := dualBuilt_iff_line
  initialTableau _ := initialTableau_iff_line
  chosenByPrimal _ _ := pivotChosen_primal_iff_line
  chosenByDual _ _ := pivotChosen_dual_iff_line
  pivoted _ _ := pivoted_iff_line
  stepped _ _ _ := stepped_iff_line
  failed _ _ _ := failed_iff_line
  solving _ := solving_iff_line

end Event

/-- a log open down to the last level leaves nothing out -/
theorem logLines_trace (log : List (Event Float)) :
    logLines Level.trace.rank log = log.map Event.line := by
  have hall : ∀ e ∈ log, decide (e.level.rank ≤ Level.trace.rank) = true := by
    intro e _
    cases e <;> rfl
  rw [logLines, List.filter_eq_self.2 hall]

end LinearProgram
