import LinearProgram.Method
import LinearProgram.Solver.Step

/-!
# Events of a solve

What a solve, or a reformulation of a problem, reports on its way.  Events are plain data; how they
are worded is left to the log.
-/

namespace LinearProgram

/-- how much an event matters, from failures down to details -/
inductive Level where
  | error
  | warn
  | info
  | debug
  | trace
  deriving DecidableEq

namespace Level

def name : Level → String
  | error => "ERROR"
  | warn => "WARN"
  | info => "INFO"
  | debug => "DEBUG"
  | trace => "TRACE"

/-- the number of levels that a log open down to this one shows -/
def rank : Level → Nat
  | error => 1
  | warn => 2
  | info => 3
  | debug => 4
  | trace => 5

end Level

inductive Event (α : Type) where
  /-- slack columns were added to so many rows; the columns before and after -/
  | standardised (rows before after : Nat)
  | dualBuilt (columns rows : Nat) (sense : Sense)
  | initialTableau (tableau : Tableau α)
  | pivotChosen (method : Method) (row column : Nat)
  /-- the tableau after the pivot of this number -/
  | pivoted (iteration : Nat) (tableau : Tableau α)
  | stepped (method : Method) (before after : Step)
  | failed (method : Method) (during : Step) (failure : Failure α)
  /-- a solve is about to start -/
  | solving (method : Method)

/-- what bringing a problem to equalities reports -/
def Event.toEqualities {α : Type} (before after : Problem α) : Event α :=
  .standardised before.constraintCount before.variableCount after.variableCount

def Event.level {α : Type} : Event α → Level
  | standardised .. => .debug
  | dualBuilt .. => .debug
  | initialTableau .. => .trace
  | pivotChosen .. => .debug
  | pivoted .. => .trace
  | stepped .. => .debug
  | failed .. => .warn
  | solving .. => .info

end LinearProgram
