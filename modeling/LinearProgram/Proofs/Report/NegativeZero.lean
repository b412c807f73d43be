import LinearProgram.Proofs.CommandLine.Lines
import LinearProgram.Proofs.Report.Shown

/-!
# Where a negative zero is shown

Numbers closer to zero than `5e-13` are shown as zero, so that no minus sign stands before zeros
alone.  That threshold is below half a unit of the last place, with three places as with four: the
negative numbers in between round to zero and keep their sign.

* `BasicTableau.numbers`, `Solution.numbers`   the numbers in a report;
* `negativeZero_iff`          the reports with a negative zero among them;
* `negativeZero_smallRhs`     a tableau and a solution of finite numbers that show one.
-/

namespace LinearProgram

/-! ### the numbers in a report -/

namespace BasicTableau

/-- the numbers in the report, line by line -/
def numbers (t : BasicTableau Float) : List (List Char) :=
  t.rows.flatMap fun row => row.map (shown 3)

/-- every number stands in the report -/
theorem numbers_infix_report {t : BasicTableau Float} {number : List Char} (h : number ∈ t.numbers) :
    number <:+: t.report.toList := by
  obtain ⟨row, hrow, hnumber⟩ := List.mem_flatMap.1 h
  obtain ⟨i, hi, rfl⟩ := List.getElem_of_mem hrow
  have hcell : padLeft cellWidth number <:+:
      (t.rows[i].map (shown 3)).flatMap (padLeft cellWidth) :=
    List.infix_of_mem_flatten (List.mem_map_of_mem hnumber)
  have hcells : (t.rows[i].map (shown 3)).flatMap (padLeft cellWidth) <:+:
      t.rowLine i t.rows[i] :=
    ((List.suffix_cons _ _).trans (List.suffix_append _ _)).isInfix
  have hline : t.rowLine i t.rows[i] ∈ t.gridLines :=
    List.mem_cons_of_mem _ (List.mem_mapIdx.2 ⟨i, hi, rfl⟩)
  have hended : t.rowLine i t.rows[i] ++ ['\n'] <:+: t.report.toList := by
    rw [report, String.toList_ofList]
    exact List.infix_of_mem_flatten (List.mem_map_of_mem hline)
  have hnumber : number <:+: t.rowLine i t.rows[i] :=
    ((List.suffix_append _ _).isInfix.trans hcell).trans hcells
  exact hnumber.trans ((List.prefix_append _ _).isInfix.trans hended)

end BasicTableau

namespace Solution

/-- the values in the report -/
def listed (s : Solution Float) (count? : Option Nat) : List Float :=
  match count? with
  | some count => s.leadingValues count
  | none => s.values

/-- the values in the report, and the objective -/
def reported (s : Solution Float) (count? : Option Nat) : List Float :=
  s.listed count? ++ [s.objectiveValue]

/-- the numbers in the report, line by line -/
def numbers (s : Solution Float) (count? : Option Nat) : List (List Char) :=
  (s.reported count?).map (shown 4)

theorem toList_report (s : Solution Float) (count? : Option Nat) : (s.report count?).toList =
    unlines (valueLines (s.listed count?)) ++ s.objectiveLine := by
  cases count? with
  | some count => exact s.toList_report_some count
  | none => exact s.toList_report_none

/-- every number stands in the report -/
theorem numbers_infix_report {s : Solution Float} {count? : Option Nat} {number : List Char}
    (h : number ∈ s.numbers count?) : number <:+: (s.report count?).toList := by
  obtain ⟨x, hx, rfl⟩ := List.mem_map.1 h
  rw [toList_report]
  rcases List.mem_append.1 hx with hx | hx
  · obtain ⟨i, hi, rfl⟩ := List.getElem_of_mem hx
    have hline : valueLine i (s.listed count?)[i] ∈ valueLines (s.listed count?) :=
      List.mem_mapIdx.2 ⟨i, hi, rfl⟩
    have hnumber : shown 4 (s.listed count?)[i] <:+: valueLine i (s.listed count?)[i] ++ ['\n'] :=
      List.infix_append _ _ _
    have hended : valueLine i (s.listed count?)[i] ++ ['\n'] <:+:
        unlines (valueLines (s.listed count?)) :=
      List.infix_of_mem_flatten (List.mem_map_of_mem hline)
    exact (hnumber.trans hended).trans (List.prefix_append _ _).isInfix
  · rw [List.mem_singleton.1 hx]
    exact ((List.suffix_append _ _).trans (List.suffix_append _ _)).isInfix

end Solution

/-! ### negative zeros -/

section
variable {x : Float}

theorem negativeZero_three_iff :
    NegativeZero (shown 3 x) ↔ -0.0005 < x ∧ x ≤ -5e-13 := by
  have hbound : IsBound 0.0005 := by decide +kernel
  have hbelow : scaled 3 (Double.rank 0.0005 - 1) < 1 := by decide +kernel
  have hat : 1 ≤ scaled 3 (Double.rank 0.0005) := by decide +kernel
  exact negativeZero_shown_iff hbound hbelow hat

theorem negativeZero_four_iff :
    NegativeZero (shown 4 x) ↔ -0.00005 < x ∧ x ≤ -5e-13 := by
  have hbound : IsBound 0.00005 := by decide +kernel
  have hbelow : scaled 4 (Double.rank 0.00005 - 1) < 1 := by decide +kernel
  have hat : 1 ≤ scaled 4 (Double.rank 0.00005) := by decide +kernel
  exact negativeZero_shown_iff hbound hbelow hat

end

/-- The numbers of a tableau and of a solution stand in their reports.  The report of a tableau shows
a negative zero exactly if one of its entries is above `-0.0005` and at most `-5e-13`; that of a
solution, with the values that are asked for, exactly if one of them or the objective is above
`-0.00005` and at most `-5e-13`. -/
theorem negativeZero_iff (t : BasicTableau Float) (s : Solution Float) (count? : Option Nat) :
    ((∀ number ∈ t.numbers, number <:+: t.report.toList) ∧
      ((∃ number ∈ t.numbers, NegativeZero number) ↔
        ∃ row ∈ t.rows, ∃ x ∈ row, -0.0005 < x ∧ x ≤ -5e-13)) ∧
    (∀ number ∈ s.numbers count?, number <:+: (s.report count?).toList) ∧
      ((∃ number ∈ s.numbers count?, NegativeZero number) ↔
        ∃ x ∈ s.reported count?, -0.00005 < x ∧ x ≤ -5e-13) := by
  refine ⟨⟨fun _ => BasicTableau.numbers_infix_report, ?_⟩,
    fun _ => Solution.numbers_infix_report, ?_⟩
  · constructor
    · rintro ⟨number, hnumber, hzero⟩
      obtain ⟨row, hrow, hnumber⟩ := List.mem_flatMap.1 hnumber
      obtain ⟨x, hx, rfl⟩ := List.mem_map.1 hnumber
      exact ⟨row, hrow, x, hx, negativeZero_three_iff.1 hzero⟩
    · rintro ⟨row, hrow, x, hx, hinterval⟩
      have hnumber : shown 3 x ∈ t.numbers :=
        List.mem_flatMap.2 ⟨row, hrow, List.mem_map_of_mem hx⟩
      exact ⟨shown 3 x, hnumber, negativeZero_three_iff.2 hinterval⟩
  · constructor
    · rintro ⟨number, hnumber, hzero⟩
      obtain ⟨x, hx, rfl⟩ := List.mem_map.1 hnumber
      exact ⟨x, hx, negativeZero_four_iff.1 hzero⟩
    · rintro ⟨x, hx, hinterval⟩
      exact ⟨shown 4 x, List.mem_map_of_mem hx, negativeZero_four_iff.2 hinterval⟩

/-- one variable and one row, with a right side not far below zero -/
def smallRhs : BasicTableau Float :=
  ⟨⟨[[1, -0.0004], [0, 0]], .maximize, 1, nofun, by decide⟩, [0]⟩

/-- a value not far below zero -/
def smallValue : Solution Float := ⟨[-0.00004], 0⟩

theorem negativeZero_smallRhs :
    (∀ row ∈ smallRhs.rows, ∀ x ∈ row, x.isFinite) ∧
      (∃ number ∈ smallRhs.numbers, NegativeZero number) ∧ smallRhs.report =
        "basis |        x1       rhs\n" ++ "x1    |     1.000    -0.000\n" ++
          "z     |     0.000     0.000\n" ∧
    (∀ x ∈ smallValue.reported none, x.isFinite) ∧
      (∃ number ∈ smallValue.numbers none, NegativeZero number) ∧
        smallValue.report none = "  x1    = -0.0000\nOptimal value: 0.0000" := by
  refine ⟨by decide +kernel, ?_, by decide +kernel, by decide +kernel, ?_, by decide +kernel⟩
  · have hnumber : "-0.000".toList ∈ smallRhs.numbers := by decide +kernel
    exact ⟨_, hnumber, ['0', '.', '0', '0', '0'], rfl, by simp⟩
  · have hnumber : "-0.0000".toList ∈ smallValue.numbers none := by decide +kernel
    exact ⟨_, hnumber, ['0', '.', '0', '0', '0', '0'], rfl, by simp⟩

end LinearProgram
