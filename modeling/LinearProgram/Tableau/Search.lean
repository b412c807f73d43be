import LinearProgram.Tableau

/-!
# Where to pivot

Each of the four searches of the method looks for the first of the least among some candidates:

* `enteringColumn`       the reduced costs below `-tolerance`;
* `leavingRow`           the ratios right side / entry over the entries above the tolerance;
* `dualLeavingRow`       the right sides below `-tolerance`;
* `dualEnteringColumn`   the ratios |reduced cost / entry| over the entries below `-tolerance`.

A ratio is a candidate only below the top of the scale.
-/

namespace LinearProgram

/-- Of numbered values, the first of the least: a later one takes over only if it is smaller. -/
def firstLeast {α : Type} [LT α] [DecidableLT α] : List (α × Nat) → Option Nat
  | [] => none
  | c :: rest => some (rest.foldl (fun best d => if d.1 < best.1 then d else best) c).2

variable {α : Type} [Scalar α]

namespace Tableau

/-! ### tests of the two methods -/

/-- no reduced cost is below `-tolerance` -/
def isOptimal (t : Tableau α) (tolerance : α) : Bool := t.costs.all (-tolerance ≤ ·)

/-- the right sides of the constraint rows, with their rows -/
def rhsByRow (t : Tableau α) : List (α × Nat) :=
  (t.constraintRows.map (·.getD t.rhsColumn 0)).zipIdx

/-- no right side of a constraint row is below `-tolerance` -/
def isFeasible (t : Tableau α) (tolerance : α) : Bool :=
  t.rhsByRow.all (-tolerance ≤ ·.1)

/-! ### candidates -/

def enteringCandidates (t : Tableau α) (tolerance : α) : List (α × Nat) :=
  t.costs.zipIdx.filter (·.1 < -tolerance)

def leavingCandidates (t : Tableau α) (column : Nat) (tolerance : α) : List (α × Nat) :=
  t.constraintRows.zipIdx.filterMap fun (row, i) =>
    let entry := row.getD column 0
    let ratio := row.getD t.rhsColumn 0 / entry
    if tolerance < entry && Scalar.belowTop ratio then some (ratio, i) else none

def dualLeavingCandidates (t : Tableau α) (tolerance : α) : List (α × Nat) :=
  t.rhsByRow.filter (·.1 < -tolerance)

def dualEnteringCandidates (t : Tableau α) (row : Nat) (tolerance : α) : List (α × Nat) :=
  (t.costs.zip (t.rows.getD row [])).zipIdx.filterMap fun ((cost, entry), j) =>
    let ratio := Scalar.abs (cost / entry)
    if entry < -tolerance && Scalar.belowTop ratio then some (ratio, j) else none

/-! ### searches -/

/-- the column of the most negative reduced cost -/
def enteringColumn (t : Tableau α) (tolerance : α) : Option Nat :=
  firstLeast (t.enteringCandidates tolerance)

/-- the row that the ratio test picks for an entering column -/
def leavingRow (t : Tableau α) (column : Nat) (tolerance : α) : Option Nat :=
  firstLeast (t.leavingCandidates column tolerance)

/-- the row of the most negative right side -/
def dualLeavingRow (t : Tableau α) (tolerance : α) : Option Nat :=
  firstLeast (t.dualLeavingCandidates tolerance)

/-- the column that the dual ratio test picks for a leaving row -/
def dualEnteringColumn (t : Tableau α) (row : Nat) (tolerance : α) : Option Nat :=
  firstLeast (t.dualEnteringCandidates row tolerance)

/-- the ratio test on any column; undefined if the column is read and does not exist -/
def leavingRow? (t : Tableau α) (column : Nat) (tolerance : α) : Option (Option Nat) :=
  if column ≤ t.variableCount ∨ t.constraintCount = 0 then some (t.leavingRow column tolerance)
  else none

/-- the dual ratio test on any row; undefined if the row does not exist -/
def dualEnteringColumn? (t : Tableau α) (row : Nat) (tolerance : α) : Option (Option Nat) :=
  if row ≤ t.constraintCount then some (t.dualEnteringColumn row tolerance) else none

/-! ### what is found exists -/

omit [Scalar α] in
theorem length_constraintRows (t : Tableau α) : t.constraintRows.length = t.constraintCount := by
  simp [constraintRows, length_rows]

omit [Scalar α] in
theorem length_costs (t : Tableau α) : t.costs.length = t.variableCount := by
  have h : t.constraintCount < t.rows.length := by rw [length_rows]; omega
  rw [costs, objectiveRow, getD_of_lt h, List.length_take, t.width_eq _ (List.getElem_mem h)]
  omega

end Tableau

theorem foldl_least_mem (l : List (α × Nat)) (b : α × Nat) :
    l.foldl (fun best d => if d.1 < best.1 then d else best) b ∈ b :: l := by
  induction l generalizing b with
  | nil => exact List.mem_cons_self
  | cons d l ih =>
    rw [List.foldl_cons]
    by_cases h : d.1 < b.1
    · rw [if_pos h]
      exact List.mem_cons_of_mem _ (ih d)
    · rw [if_neg h]
      rcases List.mem_cons.1 (ih b) with hb | hl
      · rw [hb]
        exact List.mem_cons_self
      · exact List.mem_cons_of_mem _ (List.mem_cons_of_mem _ hl)

theorem exists_mem_of_firstLeast {cs : List (α × Nat)} {i : Nat} (h : firstLeast cs = some i) :
    ∃ a, (a, i) ∈ cs := by
  cases cs with
  | nil => exact absurd h nofun
  | cons c rest =>
    obtain rfl := Option.some.inj h
    exact ⟨_, foldl_least_mem rest c⟩

namespace Tableau

theorem enteringColumn_lt {t : Tableau α} {tolerance : α} {column : Nat}
    (h : t.enteringColumn tolerance = some column) : column < t.variableCount := by
  obtain ⟨a, ha⟩ := exists_mem_of_firstLeast h
  have := (List.mem_zipIdx' (List.mem_filter.1 ha).1).1
  rwa [length_costs] at this

theorem dualLeavingRow_lt {t : Tableau α} {tolerance : α} {row : Nat}
    (h : t.dualLeavingRow tolerance = some row) : row < t.constraintCount := by
  obtain ⟨a, ha⟩ := exists_mem_of_firstLeast h
  have := (List.mem_zipIdx' (List.mem_filter.1 ha).1).1
  rwa [List.length_map, length_constraintRows] at this

theorem leavingRow_lt {t : Tableau α} {column : Nat} {tolerance : α} {row : Nat}
    (h : t.leavingRow column tolerance = some row) : row < t.constraintCount := by
  obtain ⟨a, ha⟩ := exists_mem_of_firstLeast h
  obtain ⟨⟨r, i⟩, hmem, hsome⟩ := List.mem_filterMap.1 ha
  have := (List.mem_zipIdx' hmem).1
  dsimp only at hsome
  split at hsome
  · cases hsome
    rwa [length_constraintRows] at this
  · exact absurd hsome nofun

theorem dualEnteringColumn_lt {t : Tableau α} {row : Nat} {tolerance : α} {column : Nat}
    (h : t.dualEnteringColumn row tolerance = some column) : column < t.variableCount := by
  obtain ⟨a, ha⟩ := exists_mem_of_firstLeast h
  obtain ⟨⟨⟨z, e⟩, j⟩, hmem, hsome⟩ := List.mem_filterMap.1 ha
  have := (List.mem_zipIdx' hmem).1
  dsimp only at hsome
  split at hsome
  · cases hsome
    rw [List.length_zip, length_costs] at this
    omega
  · exact absurd hsome nofun

end Tableau

end LinearProgram
