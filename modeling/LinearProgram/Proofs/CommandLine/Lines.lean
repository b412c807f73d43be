import LinearProgram.CommandLine.Run
import LinearProgram.Proofs.Decimal.Digits

/-!
# Lines that are printed

The output of a command as lines, and the lines of a solution: one for each variable that is shown,
and one for the objective.

* `toList_stdout`            printed texts, each with its end;
* `Solution.toList_report`   a report of a solution as lines;
* `ValueLine`, `ObjectiveLine`   what these lines look like.
-/

namespace LinearProgram

/-- lines, each with its end -/
def unlines (lines : List (List Char)) : List Char := lines.flatMap fun line => line ++ ['\n']

theorem unlines_append (a b : List (List Char)) : unlines (a ++ b) = unlines a ++ unlines b :=
  List.flatMap_append

theorem CommandLine.Output.toList_stdout (o : Output) :
    o.stdout.toList = unlines (o.printed.map String.toList) := by
  simp [stdout, unlines, String.toList_join, List.flatMap_map]

/-! ### numbers on a line -/

theorem newline_not_mem_digitChars (n : Nat) : '\n' ∉ digitChars n := fun h =>
  absurd (isDigit_of_mem_digitChars h) (by decide)

theorem newline_not_mem_fixedPlaces (places : Nat) (x : Float) : '\n' ∉ fixedPlaces places x := by
  rw [fixedPlaces]
  split
  · have hzeros : ∀ n, '\n' ∉ List.replicate n '0' := fun n h =>
      absurd (List.eq_of_mem_replicate h) (by decide)
    simp only [List.mem_append, List.mem_cons, not_or]
    refine ⟨⟨?_, newline_not_mem_digitChars _⟩, by decide, hzeros _, newline_not_mem_digitChars _⟩
    split <;> decide
  · rw [nonFinite]
    split_ifs <;> decide

theorem newline_not_mem_shown (places : Nat) (x : Float) : '\n' ∉ shown places x :=
  newline_not_mem_fixedPlaces places _

theorem newline_not_mem_padRight (width : Nat) {text : List Char} (h : '\n' ∉ text) :
    '\n' ∉ padRight width text := by
  rw [padRight, List.mem_append, not_or]
  exact ⟨h, fun hblank => absurd (List.eq_of_mem_replicate hblank) (by decide)⟩

/-! ### solutions -/

/-- the line of a variable -/
def ValueLine (line : List Char) : Prop := '\n' ∉ line ∧ "  x".toList <+: line

/-- the line of the objective -/
def ObjectiveLine (line : List Char) : Prop := '\n' ∉ line ∧ "Optimal value: ".toList <+: line

namespace Solution

theorem valueLine_spec (column : Nat) (value : Float) : ValueLine (valueLine column value) := by
  constructor
  · simp only [valueLine, List.mem_append, not_or]
    exact ⟨⟨⟨by decide, newline_not_mem_padRight 4 (newline_not_mem_digitChars _)⟩, by decide⟩,
      newline_not_mem_shown 4 _⟩
  · simp only [valueLine, List.append_assoc]
    exact List.prefix_append _ _

theorem objectiveLine_spec (s : Solution Float) : ObjectiveLine s.objectiveLine := by
  have hlabel : '\n' ∉ "Optimal value: ".toList := by decide +kernel
  unfold ObjectiveLine objectiveLine
  refine ⟨?_, List.prefix_append _ _⟩
  rw [List.mem_append, not_or]
  exact ⟨hlabel, newline_not_mem_shown 4 _⟩

/-- the lines of these values -/
def valueLines (values : List Float) : List (List Char) := values.mapIdx valueLine

theorem length_valueLines (values : List Float) : (valueLines values).length = values.length :=
  List.length_mapIdx

theorem valueLine_of_mem {values : List Float} : ∀ line ∈ valueLines values, ValueLine line := by
  intro line hline
  obtain ⟨i, hi, rfl⟩ := List.mem_mapIdx.1 hline
  exact valueLine_spec i _

/-- the first values have the first lines -/
theorem exists_valueLines (values : List Float) (count : Nat) :
    ∃ others, valueLines values = valueLines (values.take count) ++ others := by
  have hsplit := @List.mapIdx_append _ _ valueLine (values.take count) (values.drop count)
  rw [List.take_append_drop] at hsplit
  exact ⟨_, hsplit⟩

theorem toList_report_some (s : Solution Float) (count : Nat) :
    (s.report (some count)).toList = unlines (valueLines (s.values.take count)) ++ s.objectiveLine :=
  String.toList_ofList

theorem toList_report_none (s : Solution Float) :
    (s.report none).toList = unlines (valueLines s.values) ++ s.objectiveLine :=
  String.toList_ofList

end Solution

end LinearProgram
