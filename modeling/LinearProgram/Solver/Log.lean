import LinearProgram.Decimal.Layout
import LinearProgram.Solver.Event

/-!
# The log

An event is worded as its level and a message; grids are written as nested lists of numbers.
-/

namespace LinearProgram

/-- items between brackets -/
def bracketed (items : List String) : String := "[" ++ ", ".intercalate items ++ "]"

/-- a grid of numbers as nested lists -/
def gridText (rows : List (List Float)) : String :=
  bracketed (rows.map fun row => bracketed (row.map Layout.logged.text))

namespace Event

def message : Event Float → String
  | standardised rows before after =>
    s!"standardised {rows} constraints: {before} variables -> {after}"
  | dualBuilt columns rows sense =>
    s!"built dual: {columns} variables x {rows} constraints, sense {sense.symbol}"
  | initialTableau t => "initial tableau: " ++ gridText t.rows
  | pivotChosen .primal row column =>
    s!"primal pivot: column {column} enters, row {row} leaves"
  | pivotChosen .dual row column => s!"dual pivot: row {row} leaves, column {column} enters"
  | pivoted iteration t => s!"tableau after iteration {iteration}: " ++ gridText t.rows
  | stepped method before after =>
    s!"{method.name} solver: {before.name} -> {after.name}"
  | failed method during failure =>
    s!"{method.name} solver failed at {during.name}: " ++ failure.message Layout.plain.text
  | solving method => s!"solving with the {method.name} simplex method"

def line (e : Event Float) : String := e.level.name ++ " " ++ e.message

end Event

/-- the lines of a log that shows events up to a level of this rank -/
def logLines (rank : Nat) (events : List (Event Float)) : List String :=
  (events.filter (·.level.rank ≤ rank)).map (·.line)

end LinearProgram
