import LinearProgram.Proofs.Json.Numeral
import LinearProgram.Proofs.Json.Text

/-!
# Texts of JSON values

The texts of a value as a grammar: blanks may stand before and after items, names and values.  Every
text of the grammar is read as its value, whatever stands behind it.  The two texts that are written
belong to the grammar.

* `Json.Spells`                     the grammar;
* `Json.readValue_append`           texts of the grammar are read as their value;
* `Json.Writable`                   values whose numbers JSON accepts;
* `Writable.spells_compact`, `Writable.spells_pretty`   their two texts.
-/

namespace LinearProgram

namespace Json

/-! ### the grammar -/

/-- blanks between the parts of a text -/
def Gap (gap : List Char) : Prop := ∀ c ∈ gap, isSpace c

mutual

/-- The text is one of the value. -/
inductive Spells : List Char → Json → Prop where
  | null : Spells "null".toList null
  | boolTrue : Spells "true".toList (bool true)
  | boolFalse : Spells "false".toList (bool false)
  | number (plus : Bool) {n : Numeral} (hn : n.Strict) : Spells (n.chars plus) (number n)
  | string (text : List Char) : Spells (quoted text) (string text)
  | noItems {gap : List Char} (hgap : Gap gap) : Spells ('[' :: (gap ++ [']'])) (array [])
  | items {gap text : List Char} {items : List Json} (hgap : Gap gap)
    (h : SpellsItems text items) : Spells ('[' :: (gap ++ text)) (array items)
  | noFields {gap : List Char} (hgap : Gap gap) :
    Spells ('\x7b' :: (gap ++ ['\x7d'])) (object [])
  | fields {gap text : List Char} {fields : List (List Char × Json)} (hgap : Gap gap)
    (h : SpellsFields text fields) : Spells ('\x7b' :: (gap ++ text)) (object fields)

/-- items, up to the end of the array -/
inductive SpellsItems : List Char → List Json → Prop where
  | last {text after : List Char} {item : Json} (h : Spells text item) (hafter : Gap after) :
    SpellsItems (text ++ (after ++ [']'])) [item]
  | next {text after before rest : List Char} {item : Json} {items : List Json}
    (h : Spells text item) (hafter : Gap after) (hbefore : Gap before)
    (hrest : SpellsItems rest items) :
    SpellsItems (text ++ (after ++ ',' :: (before ++ rest))) (item :: items)

/-- fields, up to the end of the object -/
inductive SpellsFields : List Char → List (List Char × Json) → Prop where
  | last (name : List Char) {colon before text after : List Char} {value : Json}
    (hcolon : Gap colon) (hbefore : Gap before) (h : Spells text value) (hafter : Gap after) :
    SpellsFields (quoted name ++ (colon ++ ':' :: (before ++ (text ++ (after ++ ['\x7d'])))))
      [(name, value)]
  | next (name : List Char) {colon before text after gap rest : List Char} {value : Json}
    {fields : List (List Char × Json)} (hcolon : Gap colon) (hbefore : Gap before)
    (h : Spells text value) (hafter : Gap after) (hgap : Gap gap)
    (hrest : SpellsFields rest fields) :
    SpellsFields (quoted name ++
        (colon ++ ':' :: (before ++ (text ++ (after ++ ',' :: (gap ++ rest))))))
      ((name, value) :: fields)

end

/-! ### blanks -/

section
variable {gap : List Char} (hgap : Gap gap)
include hgap

theorem skipSpace_append (text : List Char) : skipSpace (gap ++ text) = skipSpace text := by
  rw [skipSpace, skipSpace, List.dropWhile_append_of_pos hgap]

theorem skipSpace_append_cons {c : Char} (hc : isSpace c = false) (text : List Char) :
    skipSpace (gap ++ c :: text) = c :: text := by
  rw [skipSpace_append hgap, skipSpace, List.dropWhile_cons_of_neg (by simp [hc])]

/-- blanks in front of a value are skipped -/
theorem readValue_gap (fuel : Nat) (text : List Char) :
    readValue fuel (gap ++ text) = readValue fuel text := by
  cases fuel with
  | zero => rw [readValue, readValue]
  | succ fuel => rw [readValue, readValue, skipSpace_append hgap]

theorem readItems_gap (fuel : Nat) (text : List Char) :
    readItems fuel (gap ++ text) = readItems fuel text := by
  cases fuel with
  | zero => rw [readItems, readItems]
  | succ fuel => rw [readItems, readItems, readValue_gap hgap]

theorem readFields_gap (fuel : Nat) (text : List Char) :
    readFields fuel (gap ++ text) = readFields fuel text := by
  cases fuel with
  | zero => rw [readFields, readFields]
  | succ fuel => rw [readFields, readFields, skipSpace_append hgap]

/-- a number ends where a blank or a mark stands -/
theorem numberEnds_append_cons {c : Char} (hc : c.isDigit = false ∧ c ≠ '.' ∧ c ≠ 'e' ∧ c ≠ 'E')
    (text : List Char) : NumberEnds (gap ++ c :: text) := by
  intro d hd
  cases gap with
  | nil =>
    cases hd
    exact hc
  | cons b gap =>
    cases hd
    have hspace := hgap d List.mem_cons_self
    simp only [isSpace, Bool.or_eq_true, beq_iff_eq] at hspace
    obtain ((rfl | rfl) | rfl) | rfl := hspace <;> decide

end

theorem skipSpace_cons {c : Char} (hc : isSpace c = false) (text : List Char) :
    skipSpace (c :: text) = c :: text := List.dropWhile_cons_of_neg (by simp [hc])

/-! ### first characters -/

variable {text rest : List Char} {v : Json}

/-- a value starts with a character that is no blank and closes no array -/
theorem Spells.exists_cons (h : Spells text v) :
    ∃ c tail, text = c :: tail ∧ isSpace c = false ∧ c ≠ ']' := by
  cases h with
  | null => exact ⟨'n', _, rfl, by decide⟩
  | boolTrue => exact ⟨'t', _, rfl, by decide⟩
  | boolFalse => exact ⟨'f', _, rfl, by decide⟩
  | string => exact ⟨'"', _, rfl, by decide⟩
  | noItems | items => exact ⟨'[', _, rfl, by decide⟩
  | noFields | fields => exact ⟨'\x7b', _, rfl, by decide⟩
  | number plus hn =>
    obtain ⟨c, tail, htext, hc⟩ := head_chars plus hn
    refine ⟨c, tail, htext, ?_⟩
    rcases hc with rfl | hdigit
    · decide
    · refine ⟨?_, ?_⟩
      · rw [isSpace]
        simp only [Bool.or_eq_false_iff, beq_eq_false_iff_ne]
        refine ⟨⟨⟨?_, ?_⟩, ?_⟩, ?_⟩ <;> rintro rfl <;> exact absurd hdigit (by decide)
      · rintro rfl
        exact absurd hdigit (by decide)

theorem SpellsItems.exists_cons {items : List Json} (h : SpellsItems text items) :
    ∃ c tail, text = c :: tail ∧ isSpace c = false ∧ c ≠ ']' := by
  cases h with
  | last h | next h =>
    obtain ⟨c, tail, rfl, hc⟩ := h.exists_cons
    exact ⟨c, _, rfl, hc⟩

theorem SpellsFields.exists_cons {fields : List (List Char × Json)} (h : SpellsFields text fields) :
    ∃ tail, text = '"' :: tail := by
  cases h <;> exact ⟨_, rfl⟩

/-! ### the reader on the grammar -/

/-- a number is read as one: its first character is that of no other value -/
theorem readValue_number (fuel : Nat) (plus : Bool) {n : Numeral} (hn : n.Strict)
    (hrest : NumberEnds rest) :
    readValue (fuel + 1) (n.chars plus ++ rest) = some (number n, rest) := by
  have hread := readNumeral?_chars plus hn hrest
  obtain ⟨c, tail, htext, hspace, -⟩ := (Spells.number plus hn).exists_cons
  obtain ⟨d, tail', htext', hd⟩ := head_chars plus hn
  rw [htext] at hread htext' ⊢
  obtain ⟨rfl, rfl⟩ := List.cons.inj htext'
  rw [readValue, List.cons_append, skipSpace_cons hspace]
  rw [List.cons_append] at hread
  split
  next h => cases h
  all_goals try
    next h =>
      obtain ⟨rfl, -⟩ := List.cons.inj h
      exact absurd hd (by decide)
  next => rw [hread]; rfl

theorem quoted_append (text rest : List Char) :
    quoted text ++ rest = '"' :: (text.flatMap escapeChar ++ '"' :: rest) := by
  rw [quoted, List.append_assoc]
  rfl

theorem readValue_string (fuel : Nat) (text rest : List Char) :
    readValue (fuel + 1) (quoted text ++ rest) = some (string text, rest) := by
  rw [quoted_append, readValue, skipSpace_cons (by decide)]
  simp only [readString?_escaped, Option.map_some]

section
variable {gap : List Char} (hgap : Gap gap) (fuel : Nat)
include hgap

theorem readValue_noItems :
    readValue (fuel + 1) ('[' :: (gap ++ ']' :: rest)) = some (array [], rest) := by
  rw [readValue, skipSpace_cons (by decide)]
  simp only [skipSpace_append_cons hgap (c := ']') (by decide)]

theorem readValue_noFields :
    readValue (fuel + 1) ('\x7b' :: (gap ++ '\x7d' :: rest)) = some (object [], rest) := by
  rw [readValue, skipSpace_cons (by decide)]
  simp only [skipSpace_append_cons hgap (c := '\x7d') (by decide)]

/-- an array that does not close at once is its items -/
theorem readValue_items {c : Char} {after : List Char} {items : List Json}
    (hc : isSpace c = false ∧ c ≠ ']') (hitems : readItems fuel (c :: rest) = some (items, after)) :
    readValue (fuel + 1) ('[' :: (gap ++ c :: rest)) = some (array items, after) := by
  rw [readValue, skipSpace_cons (by decide)]
  simp only [skipSpace_append_cons hgap hc.1]
  split
  next h => exact absurd (List.cons.inj h).1 hc.2
  next => rw [hitems, Option.map_some]

/-- an object that does not close at once is its fields -/
theorem readValue_fields {after : List Char} {fields : List (Option (List Char) × Json)}
    (hfields : readFields fuel ('"' :: rest) = some (fields, after)) :
    readValue (fuel + 1) ('\x7b' :: (gap ++ '"' :: rest)) = some (objectOf fields, after) := by
  rw [readValue, skipSpace_cons (by decide)]
  simp only [skipSpace_append_cons hgap (c := '"') (by decide)]
  split
  next h => exact absurd (List.cons.inj h).1 (by decide)
  next => rw [hfields, Option.map_some]

end

/-- names that are texts -/
abbrev asRead (field : List Char × Json) : Option (List Char) × Json := (some field.1, field.2)

/-- names that are texts make an object -/
theorem objectOf_asRead (fields : List (List Char × Json)) :
    objectOf (fields.map asRead) = object fields := by
  have hnames : (fields.map asRead).mapM (fun field => field.1.map (·, field.2)) = some fields := by
    induction fields with
    | nil => rfl
    | cons field fields ih =>
      rw [List.map_cons, List.mapM_cons, ih]
      rfl
  rw [objectOf]
  split
  next found hfound => rw [Option.some.inj (hfound.symm.trans hnames)]
  next hnone => exact absurd (hnone.symm.trans hnames) nofun

section
variable {fuel : Nat} {name colon before after : List Char} {value : Json} (hcolon : Gap colon)
  (hbefore : Gap before) (hafter : Gap after)
include hcolon hbefore hafter

theorem readFields_last
    (hvalue : readValue fuel text = some (value, after ++ '\x7d' :: rest)) :
    readFields (fuel + 1) (quoted name ++ (colon ++ ':' :: (before ++ text))) =
      some ([asRead (name, value)], rest) := by
  rw [quoted_append, readFields, skipSpace_cons (by decide)]
  simp only [readString?_escaped, skipSpace_append_cons hcolon (c := ':') (by decide),
    readValue_gap hbefore, hvalue, skipSpace_append_cons hafter (c := '\x7d') (by decide)]

theorem readFields_next {gap tail : List Char} {fields : List (List Char × Json)} (hgap : Gap gap)
    (hvalue : readValue fuel text = some (value, after ++ ',' :: (gap ++ rest)))
    (hfields : readFields fuel rest = some (fields.map asRead, tail)) :
    readFields (fuel + 1) (quoted name ++ (colon ++ ':' :: (before ++ text))) =
      some (((name, value) :: fields).map asRead, tail) := by
  rw [quoted_append, readFields, skipSpace_cons (by decide)]
  simp only [readString?_escaped, skipSpace_append_cons hcolon (c := ':') (by decide),
    readValue_gap hbefore, hvalue, skipSpace_append_cons hafter (c := ',') (by decide),
    readFields_gap hgap, hfields, Option.map_some, List.map_cons]

end

theorem readItems_last {fuel : Nat} {after : List Char} (hafter : Gap after)
    (hvalue : readValue fuel text = some (v, after ++ ']' :: rest)) :
    readItems (fuel + 1) text = some ([v], rest) := by
  rw [readItems, hvalue]
  simp only [skipSpace_append_cons hafter (c := ']') (by decide)]

theorem readItems_next {fuel : Nat} {after gap tail : List Char} {items : List Json}
    (hafter : Gap after) (hgap : Gap gap)
    (hvalue : readValue fuel text = some (v, after ++ ',' :: (gap ++ rest)))
    (hitems : readItems fuel rest = some (items, tail)) :
    readItems (fuel + 1) text = some (v :: items, tail) := by
  rw [readItems, hvalue]
  simp only [skipSpace_append_cons hafter (c := ',') (by decide), readItems_gap hgap, hitems,
    Option.map_some]

/-- With fuel for all of its characters, every text of a value is read as the value, whatever
stands behind it; so it is with items and fields. -/
theorem readValue_append_aux (fuel : Nat) :
    (∀ text v rest, Spells text v → text.length ≤ fuel → NumberEnds rest →
      readValue fuel (text ++ rest) = some (v, rest)) ∧
    (∀ text items rest, SpellsItems text items → text.length ≤ fuel →
      readItems fuel (text ++ rest) = some (items, rest)) ∧
    (∀ text fields rest, SpellsFields text fields → text.length ≤ fuel →
      readFields fuel (text ++ rest) = some (fields.map asRead, rest)) := by
  induction fuel with
  | zero =>
    refine ⟨fun text v rest h hlen => ?_, fun text items rest h hlen => ?_,
      fun text fields rest h hlen => ?_⟩
    · obtain ⟨c, tail, rfl, -⟩ := h.exists_cons
      exact absurd hlen (Nat.not_succ_le_zero _)
    · obtain ⟨c, tail, rfl, -⟩ := h.exists_cons
      exact absurd hlen (Nat.not_succ_le_zero _)
    · obtain ⟨tail, rfl⟩ := h.exists_cons
      exact absurd hlen (Nat.not_succ_le_zero _)
  | succ fuel ih =>
    obtain ⟨ihvalue, ihitems, ihfields⟩ := ih
    refine ⟨fun text v rest h hlen hrest => ?_, fun text items rest h hlen => ?_,
      fun text fields rest h hlen => ?_⟩
    · cases h with
      | null | boolTrue | boolFalse => rfl
      | number plus hn => exact readValue_number fuel plus hn hrest
      | string text => exact readValue_string fuel text rest
      | noItems hgap =>
        rw [List.cons_append, List.append_assoc]
        exact readValue_noItems hgap fuel
      | noFields hgap =>
        rw [List.cons_append, List.append_assoc]
        exact readValue_noFields hgap fuel
      | @items gap text items hgap h =>
        rw [List.length_cons, List.length_append] at hlen
        have hitems := ihitems text items rest h (by omega)
        obtain ⟨c, tail, rfl, hc⟩ := h.exists_cons
        rw [List.cons_append, List.append_assoc]
        exact readValue_items hgap fuel hc hitems
      | @fields gap text fields hgap h =>
        rw [List.length_cons, List.length_append] at hlen
        have hfields := ihfields text fields rest h (by omega)
        obtain ⟨tail, rfl⟩ := h.exists_cons
        rw [List.cons_append, List.append_assoc, ← objectOf_asRead]
        exact readValue_fields hgap fuel hfields
    · cases h with
      | @last text after item h hafter =>
        simp only [List.length_append, List.length_cons] at hlen
        simp only [List.append_assoc, List.cons_append, List.nil_append]
        refine readItems_last hafter (ihvalue text item _ h (by omega) ?_)
        exact numberEnds_append_cons hafter (by decide) _
      | @next text after before tail item items h hafter hbefore hrest =>
        simp only [List.length_append, List.length_cons] at hlen
        simp only [List.append_assoc, List.cons_append]
        refine readItems_next hafter hbefore (ihvalue text item _ h (by omega) ?_)
          (ihitems tail items rest hrest (by omega))
        exact numberEnds_append_cons hafter (by decide) _
    · cases h with
      | @last name colon before text after value hcolon hbefore h hafter =>
        simp only [List.length_append, List.length_cons] at hlen
        simp only [List.append_assoc, List.cons_append, List.nil_append]
        refine readFields_last hcolon hbefore hafter (ihvalue text value _ h (by omega) ?_)
        exact numberEnds_append_cons hafter (by decide) _
      | @next name colon before text after gap tail value fields hcolon hbefore h hafter hgap hrest =>
        simp only [List.length_append, List.length_cons] at hlen
        simp only [List.append_assoc, List.cons_append]
        refine readFields_next hcolon hbefore hafter hgap (ihvalue text value _ h (by omega) ?_)
          (ihfields tail fields rest hrest (by omega))
        exact numberEnds_append_cons hafter (by decide) _

/-- a text of a value at the front of a text -/
theorem Spells.readFront_eq (h : Spells text v) (hrest : NumberEnds rest) :
    readFront (text ++ rest) = some (v, rest) := by
  have hlen : text.length ≤ 2 * (text ++ rest).length + 1 := by
    rw [List.length_append]
    omega
  exact (readValue_append_aux _).1 text v rest h hlen hrest

/-- a text of a value and nothing else -/
theorem Spells.read?_eq (h : Spells text v) : read? text = some v := by
  have hread := h.readFront_eq numberEnds_nil
  rw [List.append_nil] at hread
  rw [read?, hread]
  rfl

/-! ### the texts that are written -/

/-- all numbers have a text that JSON accepts -/
inductive Writable : Json → Prop where
  | null : Writable null
  | bool (b : Bool) : Writable (bool b)
  | number {n : Numeral} (hn : n.Strict) : Writable (number n)
  | string (text : List Char) : Writable (string text)
  | array {items : List Json} (h : ∀ item ∈ items, Writable item) : Writable (array items)
  | object {fields : List (List Char × Json)} (h : ∀ field ∈ fields, Writable field.2) :
    Writable (object fields)

theorem gap_nil : Gap [] := nofun

theorem gap_newLine (depth : Nat) : Gap (newLine depth) := by
  refine List.forall_mem_cons.2 ⟨by decide, fun c hc => ?_⟩
  rw [List.eq_of_mem_replicate hc]
  rfl

theorem gap_blank : Gap [' '] := by
  intro c hc
  rw [List.mem_singleton.1 hc]
  rfl

/-- items one after the other -/
theorem spellsItems_compact {item : Json} {items : List Json}
    (h : ∀ v ∈ item :: items, Spells v.compact v) :
    SpellsItems (item.compact ++ compactItems items ++ [']']) (item :: items) := by
  induction items generalizing item with
  | nil =>
    rw [compactItems, List.append_nil]
    exact .last (h item List.mem_cons_self) gap_nil
  | cons next items ih =>
    have hrest := ih fun v hv => h v (List.mem_cons_of_mem _ hv)
    have hspells := SpellsItems.next (h item List.mem_cons_self) gap_nil gap_nil hrest
    simpa only [compactItems, List.append_assoc, List.cons_append, List.nil_append] using hspells

theorem spellsItems_pretty (depth : Nat) {item : Json} {items : List Json}
    (h : ∀ v ∈ item :: items, Spells (v.prettyAt (depth + 1)) v) :
    SpellsItems (item.prettyAt (depth + 1) ++ prettyItems (depth + 1) items ++
      newLine depth ++ [']']) (item :: items) := by
  induction items generalizing item with
  | nil =>
    rw [prettyItems, List.append_nil, List.append_assoc]
    exact .last (h item List.mem_cons_self) (gap_newLine depth)
  | cons next items ih =>
    have hrest := ih fun v hv => h v (List.mem_cons_of_mem _ hv)
    have hspells := SpellsItems.next (h item List.mem_cons_self) gap_nil (gap_newLine (depth + 1)) hrest
    simpa only [prettyItems, List.append_assoc, List.cons_append, List.nil_append] using hspells

theorem spellsFields_compact {name : List Char} {value : Json} {fields : List (List Char × Json)}
    (h : ∀ field ∈ (name, value) :: fields, Spells field.2.compact field.2) :
    SpellsFields (quoted name ++ ':' :: value.compact ++ compactFields fields ++ ['\x7d'])
      ((name, value) :: fields) := by
  induction fields generalizing name value with
  | nil =>
    have hspells := SpellsFields.last name gap_nil gap_nil (h _ List.mem_cons_self) gap_nil
    simpa only [compactFields, List.append_assoc, List.cons_append, List.nil_append] using hspells
  | cons next fields ih =>
    have hrest := ih fun field hfield => h field (List.mem_cons_of_mem _ hfield)
    have hspells := SpellsFields.next name gap_nil gap_nil (h _ List.mem_cons_self) gap_nil
      gap_nil hrest
    simpa only [compactFields, List.append_assoc, List.cons_append, List.nil_append] using hspells

theorem spellsFields_pretty (depth : Nat) {name : List Char} {value : Json}
    {fields : List (List Char × Json)}
    (h : ∀ field ∈ (name, value) :: fields, Spells (field.2.prettyAt (depth + 1)) field.2) :
    SpellsFields (quoted name ++ ':' :: ' ' :: value.prettyAt (depth + 1) ++
      prettyFields (depth + 1) fields ++ newLine depth ++ ['\x7d']) ((name, value) :: fields) := by
  induction fields generalizing name value with
  | nil =>
    have hspells := SpellsFields.last name gap_nil gap_blank (h _ List.mem_cons_self)
      (gap_newLine depth)
    simpa only [prettyFields, List.append_assoc, List.cons_append, List.nil_append] using hspells
  | cons next fields ih =>
    have hrest := ih fun field hfield => h field (List.mem_cons_of_mem _ hfield)
    have hspells := SpellsFields.next name gap_nil gap_blank (h _ List.mem_cons_self)
      gap_nil (gap_newLine (depth + 1)) hrest
    simpa only [prettyFields, List.append_assoc, List.cons_append, List.nil_append] using hspells

/-- the text without blanks -/
theorem Writable.spells_compact (h : Writable v) : Spells v.compact v := by
  induction h with
  | null =>
    rw [compact]
    exact .null
  | bool b =>
    cases b with
    | true =>
      rw [compact]
      exact .boolTrue
    | false =>
      rw [compact]
      exact .boolFalse
  | number hn =>
    rw [compact]
    exact .number true hn
  | string text =>
    rw [compact]
    exact .string text
  | @array items _ ih =>
    cases items with
    | nil =>
      rw [compact]
      exact .noItems gap_nil
    | cons item items =>
      have hspells := Spells.items gap_nil (spellsItems_compact ih)
      simpa only [compact, List.append_assoc, List.cons_append, List.nil_append] using hspells
  | @object fields _ ih =>
    cases fields with
    | nil =>
      rw [compact]
      exact .noFields gap_nil
    | cons field fields =>
      have hspells := Spells.fields gap_nil (spellsFields_compact ih)
      simpa only [compact, List.append_assoc, List.cons_append, List.nil_append] using hspells

/-- the text with an element on each line -/
theorem Writable.spells_prettyAt (h : Writable v) (depth : Nat) : Spells (v.prettyAt depth) v := by
  induction h generalizing depth with
  | null =>
    rw [prettyAt]
    exact .null
  | bool b =>
    cases b with
    | true =>
      rw [prettyAt]
      exact .boolTrue
    | false =>
      rw [prettyAt]
      exact .boolFalse
  | number hn =>
    rw [prettyAt]
    exact .number true hn
  | string text =>
    rw [prettyAt]
    exact .string text
  | @array items _ ih =>
    cases items with
    | nil =>
      rw [prettyAt]
      exact .noItems gap_nil
    | cons item items =>
      have hspells := Spells.items (gap_newLine (depth + 1))
        (spellsItems_pretty depth fun v hv => ih v hv (depth + 1))
      simpa only [prettyAt, List.append_assoc, List.cons_append, List.nil_append] using hspells
  | @object fields _ ih =>
    cases fields with
    | nil =>
      rw [prettyAt]
      exact .noFields gap_nil
    | cons field fields =>
      have hspells := Spells.fields (gap_newLine (depth + 1))
        (spellsFields_pretty depth fun field hfield => ih field hfield (depth + 1))
      simpa only [prettyAt, List.append_assoc, List.cons_append, List.nil_append] using hspells

theorem Writable.spells_pretty (h : Writable v) : Spells v.pretty v := h.spells_prettyAt 0

end Json

end LinearProgram
