import LinearProgram.Problem.Printer
import LinearProgram.Solver
import LinearProgram.Text.Piece

/-!
# Reports for the terminal

A tableau is shown as a grid with one labelled row per basic variable and a last row `z`, a
solution as one line per variable and a line for the objective.  Variables are numbered from 1.
Columns are padded to their width and never cut.
-/

namespace LinearProgram

/-- numbers closer to zero than this are shown as zero -/
def shownAsZero (x : Float) : Bool := x.abs < 5e-13

/-- a number rounded to some places, for display -/
def shown (places : Nat) (x : Float) : List Char :=
  fixedPlaces places (if shownAsZero x then 0 else x)

/-- the name of the variable of a column -/
def variableName (column : Nat) : List Char := 'x' :: digitChars (column + 1)

namespace BasicTableau

def labelWidth : Nat := 6

def cellWidth : Nat := 10

/-- the basic variable of a constraint row, `z` for all other rows -/
def label (t : BasicTableau Float) (row : Nat) : List Char :=
  match t.basis[row]? with
  | some column => if row < t.constraintCount then variableName column else ['z']
  | none => ['z']

/-- a label, a bar, and cells -/
def gridLine (label : List Char) (cells : List (List Char)) : List Char :=
  padRight labelWidth label ++ '|' :: cells.flatMap (padLeft cellWidth)

def headLine (t : BasicTableau Float) : List Char :=
  gridLine "basis".toList ((List.range t.variableCount).map variableName ++ ["rhs".toList])

def rowLine (t : BasicTableau Float) (row : Nat) (cells : List Float) : List Char :=
  gridLine (t.label row) (cells.map (shown 3))

def gridLines (t : BasicTableau Float) : List (List Char) :=
  t.headLine :: t.rows.mapIdx t.rowLine

def report (t : BasicTableau Float) : String :=
  String.ofList (t.gridLines.flatMap fun line => line ++ ['\n'])

end BasicTableau

namespace Solution

def valueLine (column : Nat) (value : Float) : List Char :=
  "  x".toList ++ padRight 4 (digitChars (column + 1)) ++ " = ".toList ++ shown 4 value

def objectiveLine (s : Solution Float) : List Char :=
  "Optimal value: ".toList ++ shown 4 s.objectiveValue

/-- The solution, or only its first `count?` variables. -/
def report (s : Solution Float) (count? : Option Nat) : String :=
  let values :=
    match count? with
    | some count => s.leadingValues count
    | none => s.values
  String.ofList
    ((values.mapIdx valueLine).flatMap (fun line => line ++ ['\n']) ++ s.objectiveLine)

end Solution

def Snapshot.report : Snapshot Float → String
  | problem p => p.text
  | tableau t => t.report
  | solution s => s.report none

end LinearProgram
