import LinearProgram.Method
import LinearProgram.Proofs.Checked.Access
import LinearProgram.Proofs.Tableau.Candidates
import LinearProgram.Solution
import LinearProgram.Tableau.Canonical

/-!
# Grids

The rows of a tableau as lists of any lengths, with the basic columns beside them.  All that is read
off a grid is read with a check.  On the grid of a tableau every reading is defined, and gives what
the tableau gives.

* `Grid.selectPivot?_grid`   the searches of both methods;
* `Grid.solution?_grid`      the basic solution, for a basis that fits.
-/

namespace LinearProgram
open Checked

/-- the rows and the basic columns of a tableau, of any lengths -/
structure Grid (α : Type) where
  rows : List (List α)
  sense : Sense
  basis : List Nat

def BasicTableau.grid {α : Type} (t : BasicTableau α) : Grid α := ⟨t.rows, t.sense, t.basis⟩

namespace Grid

/-! ### shape -/

section
variable {α : Type}

def constraintCount? (g : Grid α) : Option Nat := pred? g.rows.length

def variableCount? (g : Grid α) : Option Nat := do
  let first ← g.rows[0]?
  pred? first.length

def objectiveRow? (g : Grid α) : Option (List α) := do
  let n ← g.constraintCount?
  g.rows[n]?

def rhs? (g : Grid α) (row : Nat) : Option α := do
  let entries ← g.rows[row]?
  let m ← g.variableCount?
  entries[m]?

variable (t : BasicTableau α)

theorem constraintCount?_grid : t.grid.constraintCount? = some t.constraintCount := by
  show pred? t.rows.length = _
  rw [t.length_rows]
  rfl

theorem getElem?_rows {i : Nat} (hi : i < t.rows.length) : t.grid.rows[i]? = some t.rows[i] :=
  List.getElem?_eq_getElem hi

theorem variableCount?_grid : t.grid.variableCount? = some t.variableCount := by
  have hfirst : 0 < t.rows.length := List.length_pos_iff.2 t.rows_ne_nil
  rw [variableCount?, getElem?_rows t hfirst]
  show pred? t.rows[0].length = _
  rw [t.width_eq _ (List.getElem_mem hfirst)]
  rfl

theorem objectiveRow?_grid : t.grid.objectiveRow? = some t.objectiveRow := by
  have hlast : t.constraintCount < t.rows.length := by rw [t.length_rows]; omega
  rw [objectiveRow?, constraintCount?_grid]
  show t.grid.rows[t.constraintCount]? = _
  rw [getElem?_rows t hlast, Tableau.objectiveRow, getD_of_lt hlast]

end

variable {α : Type} [Scalar α]

theorem rhs?_grid (t : BasicTableau α) {row : Nat} (hrow : row ≤ t.constraintCount) :
    t.grid.rhs? row = some (t.rhs row) := by
  have hlt : row < t.rows.length := by rw [t.length_rows]; omega
  have hcell := Tableau.cell?_eq_some hrow (Nat.le_refl t.variableCount)
  rw [Tableau.cell?, List.getElem?_eq_getElem hlt] at hcell
  rw [rhs?, getElem?_rows t hlt, variableCount?_grid]
  exact hcell

def objectiveValue? (g : Grid α) : Option α := do
  let n ← g.constraintCount?
  let value ← g.rhs? n
  match g.sense with
  | .maximize => some value
  | .minimize => some (-value)

theorem objectiveValue?_grid (t : BasicTableau α) :
    t.grid.objectiveValue? = some t.objectiveValue := by
  rw [objectiveValue?, constraintCount?_grid]
  show (t.grid.rhs? t.constraintCount).bind _ = _
  rw [rhs?_grid t (Nat.le_refl _), Option.bind_some, Tableau.objectiveValue]
  show (match t.sense with | .maximize => some t.value | .minimize => some (-t.value)) = _
  cases t.sense <;> rfl

/-! ### searches -/

/-- the reduced costs, without the value at their end -/
def costs? (g : Grid α) : Option (List α) := do
  let entries ← g.objectiveRow?
  let m ← g.variableCount?
  front? entries m

/-- the right sides of the constraint rows -/
def rightSides? (g : Grid α) : Option (List α) := do
  let n ← g.constraintCount?
  (List.range n).mapM g.rhs?

def isOptimal? (m : Method) (tolerance : α) (g : Grid α) : Option Bool :=
  match m with
  | .primal => do
    let costs ← g.costs?
    some (costs.all (-tolerance ≤ ·))
  | .dual => do
    let bs ← g.rightSides?
    some (bs.all (-tolerance ≤ ·))

def enteringColumn? (g : Grid α) (tolerance : α) : Option (Option Nat) := do
  let costs ← g.costs?
  some (firstLeast (costs.zipIdx.filter (·.1 < -tolerance)))

/-- the ratio of a row, read only where the entry is above the tolerance -/
def leavingCandidate? (m column : Nat) (tolerance : α) :
    List α × Nat → Option (Option (α × Nat))
  | (row, i) => do
    let entry ← row[column]?
    if tolerance < entry then
      let b ← row[m]?
      some (if Scalar.belowTop (b / entry) then some (b / entry, i) else none)
    else some none

def leavingRow? (g : Grid α) (column : Nat) (tolerance : α) : Option (Option Nat) := do
  let m ← g.variableCount?
  let n ← g.constraintCount?
  let rows ← front? g.rows n
  let found ← rows.zipIdx.mapM (leavingCandidate? m column tolerance)
  some (firstLeast (found.filterMap id))

def dualLeavingRow? (g : Grid α) (tolerance : α) : Option (Option Nat) := do
  let bs ← g.rightSides?
  some (firstLeast (bs.zipIdx.filter (·.1 < -tolerance)))

/-- the absolute ratio of a column, read only where the entry is below minus the tolerance -/
def dualEnteringCandidate? (costs leaving : List α) (tolerance : α) (j : Nat) :
    Option (Option (α × Nat)) := do
  let entry ← leaving[j]?
  if entry < -tolerance then
    let cost ← costs[j]?
    let ratio := Scalar.abs (cost / entry)
    some (if Scalar.belowTop ratio then some (ratio, j) else none)
  else some none

def dualEnteringColumn? (g : Grid α) (row : Nat) (tolerance : α) : Option (Option Nat) := do
  let costs ← g.objectiveRow?
  let leaving ← g.rows[row]?
  let m ← g.variableCount?
  let found ← (List.range m).mapM (dualEnteringCandidate? costs leaving tolerance)
  some (firstLeast (found.filterMap id))

def selectPivot? (m : Method) (tolerance : α) (g : Grid α) :
    Option (Except (Failure α) (Option (Nat × Nat))) :=
  match m with
  | .primal => do
    match ← g.enteringColumn? tolerance with
    | none => some (.ok none)
    | some column =>
      match ← g.leavingRow? column tolerance with
      | none => some (.error (.unbounded column))
      | some row => some (.ok (some (row, column)))
  | .dual => do
    match ← g.dualLeavingRow? tolerance with
    | none => some (.ok none)
    | some row =>
      match ← g.dualEnteringColumn? row tolerance with
      | none => some (.error (.infeasible row))
      | some column => some (.ok (some (row, column)))

omit [Scalar α] in
theorem costs?_grid (t : BasicTableau α) : t.grid.costs? = some t.costs := by
  have hlast : t.constraintCount < t.rows.length := by rw [t.length_rows]; omega
  have hlen : t.objectiveRow.length = t.variableCount + 1 := by
    rw [Tableau.objectiveRow, getD_of_lt hlast, Tableau.length_getElem_rows]
  rw [costs?, objectiveRow?_grid, variableCount?_grid]
  exact front?_eq (by omega)

theorem rightSides?_grid (t : BasicTableau α) :
    t.grid.rightSides? = some (t.constraintRows.map (·.getD t.rhsColumn 0)) := by
  have hread : ∀ i ∈ List.range t.constraintCount, t.grid.rhs? i = some (t.rhs i) := by
    intro i hi
    have := List.mem_range.1 hi
    exact rhs?_grid t (by omega)
  rw [rightSides?, constraintCount?_grid]
  show (List.range t.constraintCount).mapM t.grid.rhs? = _
  rw [mapM_eq_some hread]
  refine congrArg some (List.ext_getElem ?_ fun i hi _ => ?_)
  · simp [Tableau.length_constraintRows]
  · have hi : i < t.rows.length := by rw [t.length_rows]; simp at hi; omega
    simp [Tableau.constraintRows, Tableau.rhs, Tableau.cell_eq_getD _ hi]

theorem isOptimal?_grid (m : Method) (tolerance : α) (t : BasicTableau α) :
    isOptimal? m tolerance t.grid = some (m.isOptimal tolerance t.toTableau) := by
  cases m with
  | primal => rw [isOptimal?, costs?_grid]; rfl
  | dual =>
    rw [isOptimal?, rightSides?_grid]
    show some (List.all _ _) = some (t.rhsByRow.all _)
    rw [← List.zipIdx_map_fst 0 (t.constraintRows.map _), List.all_map]
    rfl

theorem enteringColumn?_grid (t : BasicTableau α) (tolerance : α) :
    t.grid.enteringColumn? tolerance = some (t.enteringColumn tolerance) := by
  rw [enteringColumn?, costs?_grid]
  rfl

theorem dualLeavingRow?_grid (t : BasicTableau α) (tolerance : α) :
    t.grid.dualLeavingRow? tolerance = some (t.dualLeavingRow tolerance) := by
  rw [dualLeavingRow?, rightSides?_grid]
  rfl

theorem leavingCandidate?_eq {m column : Nat} (hc : column ≤ m) (tolerance : α) {row : List α}
    (hlen : row.length = m + 1) (i : Nat) : leavingCandidate? m column tolerance (row, i) = some (
      let entry := row.getD column 0
      let ratio := row.getD m 0 / entry
      if tolerance < entry && Scalar.belowTop ratio then some (ratio, i) else none) := by
  have hentry : column < row.length := by omega
  have hright : m < row.length := by omega
  rw [leavingCandidate?, List.getElem?_eq_getElem hentry, List.getElem?_eq_getElem hright,
    getD_of_lt hentry, getD_of_lt hright]
  by_cases hlt : tolerance < row[column] <;> simp [hlt]

theorem leavingRow?_grid (t : BasicTableau α) {column : Nat} (hc : column ≤ t.variableCount)
    (tolerance : α) :
    t.grid.leavingRow? column tolerance = some (t.leavingRow column tolerance) := by
  have hrows : front? t.grid.rows t.constraintCount = some t.constraintRows :=
    front?_eq (by show t.constraintCount ≤ t.rows.length; rw [t.length_rows]; omega)
  have hread := fun (a : List α × Nat) (ha : a ∈ t.constraintRows.zipIdx) =>
    leavingCandidate?_eq hc tolerance
      (t.width_eq a.1 (List.mem_of_mem_take (List.fst_mem_of_mem_zipIdx ha))) a.2
  rw [leavingRow?, variableCount?_grid, constraintCount?_grid]
  simp only [Option.bind_eq_bind, Option.bind_some, hrows]
  rw [mapM_eq_some hread, Option.bind_some, List.filterMap_map]
  rfl

theorem dualEnteringCandidate?_eq (t : BasicTableau α) {row j : Nat}
    (hr : row ≤ t.constraintCount) (tolerance : α) (hj : j < t.variableCount) :
    dualEnteringCandidate? t.objectiveRow (t.rows.getD row []) tolerance j = some (
      let ratio := Scalar.abs (t.cell t.constraintCount j / t.cell row j)
      if t.cell row j < -tolerance && Scalar.belowTop ratio then some (ratio, j) else none) := by
  have hcost := Tableau.getElem?_row (Nat.le_refl t.constraintCount) hj
  rw [← Tableau.objectiveRow] at hcost
  rw [dualEnteringCandidate?, Tableau.getElem?_row hr hj, hcost]
  by_cases hbelow : t.cell row j < -tolerance <;> simp [hbelow]

/-- the entries of the objective row and of another row, column by column -/
theorem zipIdx_zip_costs (t : BasicTableau α) {row : Nat} (hr : row ≤ t.constraintCount) :
    (t.costs.zip (t.rows.getD row [])).zipIdx = (List.range t.variableCount).map fun j =>
      ((t.cell t.constraintCount j, t.cell row j), j) := by
  refine List.ext_getElem? fun j => ?_
  rw [List.getElem?_zipIdx, List.getElem?_map]
  by_cases hj : j < t.variableCount
  · have hcost := (Tableau.getElem?_costs (t := t.toTableau)).2 ⟨hj, rfl⟩
    have hzip : (t.costs.zip (t.rows.getD row []))[j]? =
        some (t.cell t.constraintCount j, t.cell row j) :=
      List.getElem?_zip_eq_some.2 ⟨hcost, Tableau.getElem?_row hr hj⟩
    rw [hzip, List.getElem?_range hj, Option.map_some, Option.map_some, Nat.zero_add]
  · have hzip : (t.costs.zip (t.rows.getD row []))[j]? = none := by
      refine List.getElem?_eq_none ?_
      rw [List.length_zip, Tableau.length_costs]
      omega
    rw [hzip, List.getElem?_eq_none (by rw [List.length_range]; omega)]
    rfl

theorem dualEnteringColumn?_grid (t : BasicTableau α) {row : Nat} (hr : row ≤ t.constraintCount)
    (tolerance : α) :
    t.grid.dualEnteringColumn? row tolerance = some (t.dualEnteringColumn row tolerance) := by
  have hlt : row < t.rows.length := by rw [t.length_rows]; omega
  have hread := fun (j : Nat) (hj : j ∈ List.range t.variableCount) =>
    dualEnteringCandidate?_eq t hr tolerance (List.mem_range.1 hj)
  rw [getD_of_lt hlt] at hread
  rw [dualEnteringColumn?, objectiveRow?_grid, variableCount?_grid, getElem?_rows t hlt]
  simp only [Option.bind_eq_bind, Option.bind_some]
  rw [mapM_eq_some hread, Option.bind_some, List.filterMap_map, Tableau.dualEnteringColumn,
    Tableau.dualEnteringCandidates, zipIdx_zip_costs t hr, List.filterMap_map]
  rfl

theorem selectPivot?_grid (m : Method) (tolerance : α) (t : BasicTableau α) :
    selectPivot? m tolerance t.grid = some (m.selectPivot tolerance t.toTableau) := by
  cases m with
  | primal =>
    rw [selectPivot?, enteringColumn?_grid, Method.selectPivot]
    cases hc : t.enteringColumn tolerance with
    | none => rfl
    | some column =>
      have hlt := Tableau.enteringColumn_lt hc
      dsimp only
      show (t.grid.leavingRow? column tolerance).bind _ = _
      rw [leavingRow?_grid t (by omega)]
      cases t.leavingRow column tolerance <;> rfl
  | dual =>
    rw [selectPivot?, dualLeavingRow?_grid, Method.selectPivot]
    cases hr : t.dualLeavingRow tolerance with
    | none => rfl
    | some row =>
      have hlt := Tableau.dualLeavingRow_lt hr
      dsimp only
      show (t.grid.dualEnteringColumn? row tolerance).bind _ = _
      rw [dualEnteringColumn?_grid t (by omega)]
      cases t.dualEnteringColumn row tolerance <;> rfl

/-! ### the basic solution -/

/-- the right side of a row written at its basic column -/
def writeBasic? (g : Grid α) (values : List α) : Nat × Nat → Option (List α)
  | (column, row) => do
    let b ← g.rhs? row
    put? values column b

def solution? (g : Grid α) : Option (Solution α) := do
  let m ← g.variableCount?
  let values ← g.basis.zipIdx.foldlM g.writeBasic? (List.replicate m 0)
  let objective ← g.objectiveValue?
  some ⟨values, objective⟩

theorem solution?_grid {t : BasicTableau α} (h : t.Fits) :
    t.grid.solution? = some t.solution := by
  have hround : ∀ values : List α, values.length = t.variableCount → ∀ a ∈ t.grid.basis.zipIdx,
      t.grid.writeBasic? values a = some (values.set a.1 (t.rhs a.2)) ∧
        (values.set a.1 (t.rhs a.2)).length = t.variableCount := by
    intro values hlen a ha
    have hrow : a.2 < t.basis.length := (List.mem_zipIdx' ha).1
    have hcolumn := h.lt a.1 (List.fst_mem_of_mem_zipIdx ha)
    have hcount := h.length_eq
    rw [writeBasic?, rhs?_grid t (by omega)]
    exact ⟨put?_eq (by omega) _, by rw [List.length_set, hlen]⟩
  have hvalues := foldlM_eq_some hround (List.length_replicate (n := t.variableCount) (a := 0))
  rw [solution?, variableCount?_grid, objectiveValue?_grid]
  simp only [Option.bind_eq_bind, Option.bind_some, hvalues]
  rfl

end Grid

end LinearProgram
