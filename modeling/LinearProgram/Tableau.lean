import LinearProgram.Failure
import LinearProgram.Scalar
import LinearProgram.Sense

/-!
# Tableaux

A tableau is a grid of rows of one width.  The last row is the objective row, the others are the
constraint rows; the last column is the right side, the others are the columns of the variables.
The objective row is that of a maximisation whatever the sense: a negative entry marks a column
that can still improve the objective.

* `Tableau.ofRows`    a tableau from its rows, refused when they are empty or ragged;
* `Tableau.cell`      an entry, `0` outside of the grid; `Tableau.cell?` is undefined there.
-/

namespace LinearProgram

theorem getD_of_lt {β : Type} {l : List β} {i : Nat} (h : i < l.length) (d : β) :
    l.getD i d = l[i] := by
  rw [List.getD_eq_getElem?_getD, List.getElem?_eq_getElem h, Option.getD_some]

structure Tableau (α : Type) where
  rows : List (List α)
  sense : Sense
  /-- the number of columns before the right side -/
  variableCount : Nat
  rows_ne_nil : rows ≠ []
  width_eq : ∀ row ∈ rows, row.length = variableCount + 1

namespace Tableau

variable {α : Type}

theorem ext_rows {s t : Tableau α} (hrows : s.rows = t.rows) (hsense : s.sense = t.sense) :
    s = t := by
  obtain ⟨rows, sense, m, hne, hw⟩ := s
  obtain ⟨rows', sense', m', hne', hw'⟩ := t
  obtain rfl : rows = rows' := hrows
  obtain rfl : sense = sense' := hsense
  obtain ⟨row, hrow⟩ := List.exists_mem_of_ne_nil rows hne
  obtain rfl : m = m' := Nat.succ.inj ((hw row hrow).symm.trans (hw' row hrow))
  rfl

/-- the number of rows above the objective row -/
def constraintCount (t : Tableau α) : Nat := t.rows.length - 1

/-- the column of the right side -/
def rhsColumn (t : Tableau α) : Nat := t.variableCount

theorem length_rows (t : Tableau α) : t.rows.length = t.constraintCount + 1 := by
  have := List.length_pos_iff.2 t.rows_ne_nil
  rw [constraintCount]
  omega

/-- Rows as a tableau.  There must be a column, and every row must be as long as the first. -/
def ofRows (rows : List (List α)) (sense : Sense) : Except (Failure α) (Tableau α) :=
  match rows with
  | [] => .error (.dimensionMismatch .tableauColumns 1 0)
  | [] :: _ => .error (.dimensionMismatch .tableauColumns 1 0)
  | (a :: first) :: rest =>
    match h : rest.find? (·.length != first.length + 1) with
    | some row => .error (.dimensionMismatch .tableauColumns (first.length + 1) row.length)
    | none =>
      .ok {
        rows := (a :: first) :: rest
        sense := sense
        variableCount := first.length
        rows_ne_nil := by simp
        width_eq := by
          intro row hrow
          rcases List.mem_cons.1 hrow with rfl | hrow
          · rfl
          · simpa using List.find?_eq_none.1 h row hrow }

theorem rows_of_ofRows {rows : List (List α)} {sense : Sense} {t : Tableau α}
    (h : ofRows rows sense = .ok t) : t.rows = rows ∧ t.sense = sense := by
  unfold ofRows at h
  split at h
  · exact absurd h nofun
  · exact absurd h nofun
  · split at h
    · exact absurd h nofun
    · cases h
      exact ⟨rfl, rfl⟩

theorem ofRows_rows (t : Tableau α) : ofRows t.rows t.sense = .ok t := by
  obtain ⟨rows, sense, m, hne, hw⟩ := t
  match rows, hne, hw with
  | [] :: rest, _, hw => exact absurd (hw [] List.mem_cons_self) (by simp)
  | (a :: first) :: rest, hne, hw =>
    have hm : first.length = m := Nat.succ.inj (hw (a :: first) List.mem_cons_self)
    have hfind : rest.find? (·.length != first.length + 1) = none := by
      rw [List.find?_eq_none]
      intro row hrow
      simp [hw row (List.mem_cons_of_mem _ hrow), hm]
    unfold ofRows
    dsimp only
    split
    · next h => rw [hfind] at h; exact absurd h (by simp)
    · exact congrArg Except.ok (ext_rows rfl rfl)

/-! ### entries -/

def cell? (t : Tableau α) (row column : Nat) : Option α := (t.rows[row]?).bind (·[column]?)

variable [Scalar α]

def cell (t : Tableau α) (row column : Nat) : α := (t.rows.getD row []).getD column 0

theorem cell?_eq_some {t : Tableau α} {row column : Nat} (hr : row ≤ t.constraintCount)
    (hc : column ≤ t.variableCount) : t.cell? row column = some (t.cell row column) := by
  have hr' : row < t.rows.length := by rw [length_rows]; omega
  have hc' : column < (t.rows[row]).length := by
    rw [t.width_eq _ (List.getElem_mem hr')]; omega
  simp [cell?, cell, List.getD, hr', hc']

/-- the row of reduced costs, the right side included -/
def objectiveRow (t : Tableau α) : List α := t.rows.getD t.constraintCount []

/-- the reduced costs of the variables -/
def costs (t : Tableau α) : List α := t.objectiveRow.take t.variableCount

/-- the rows above the objective row -/
def constraintRows (t : Tableau α) : List (List α) := t.rows.take t.constraintCount

def rhs (t : Tableau α) (row : Nat) : α := t.cell row t.rhsColumn

/-- the entry where the objective row meets the right side: the value of the maximised objective -/
def value (t : Tableau α) : α := t.rhs t.constraintCount

/-- the objective of the basic solution, in the sense of the problem -/
def objectiveValue (t : Tableau α) : α :=
  match t.sense with
  | .maximize => t.value
  | .minimize => -t.value

end Tableau

end LinearProgram
