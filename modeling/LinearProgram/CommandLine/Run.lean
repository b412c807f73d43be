import LinearProgram.CommandLine.Invocation
import LinearProgram.Json.Form
import LinearProgram.Problem.Reader
import LinearProgram.Report
import LinearProgram.Reformulation
import LinearProgram.Solver.Log
import LinearProgram.Solver.Move

/-!
# Running a command

`run` is a command as a function of the text of its file: what it prints, what it logs, and how
it ends.  A solve may go on for ever, so the number of its steps is bounded from outside, and
there is no output when the bound is reached.
-/

namespace LinearProgram

namespace CommandLine

/-- why a command failed: what it was doing, and what came in between -/
structure Trouble where
  context : String
  cause : String
  deriving DecidableEq

def Trouble.report (t : Trouble) : String :=
  "Error: " ++ t.context ++ "\n\nCaused by:\n    " ++ t.cause ++ "\n"

structure Output where
  /-- the texts printed, each on lines of its own -/
  printed : List String
  events : List (Event Float)
  trouble : Option Trouble
  deriving Inhabited

namespace Output

def stdout (o : Output) : String := String.join (o.printed.map (· ++ "\n"))

def stderr (o : Output) : String := (o.trouble.map Trouble.report).getD ""

def code (o : Output) : Nat := if o.trouble.isSome then 1 else 0

/-- the output of a command that fails before it prints -/
def failing (context cause : String) : Output := ⟨[], [], some ⟨context, cause⟩⟩

/-- one output after another -/
def after (first second : Output) : Output :=
  ⟨first.printed ++ second.printed, first.events ++ second.events, second.trouble⟩

end Output

/-- the tolerance of every solve -/
def tolerance : Float := 1e-10

/-! ### solving -/

def prettyJson (v : Json) : String := String.ofList v.pretty

/-- a step as it is shown while solving -/
def showStep (format : Format) (s : Solver Float) : List String :=
  match format with
  | .json => (s.snapshot?.map fun snapshot => prettyJson snapshot.toJson).toList
  | .pretty =>
    ("== " ++ s.currentStep.description) ::
      (s.snapshot?.map fun snapshot => [snapshot.report, ""]).getD []

/-- a solution of a problem with `count` variables -/
def showSolution (format : Format) (count iterations : Nat) (s : Solution Float) : List String :=
  match format with
  | .json => [prettyJson (JsonForm.toJson s)]
  | .pretty => [s!"Status: OPTIMAL ({iterations} iterations)", s.report (some count)]

/-- what stopped a solve -/
def stopped (s : Solver Float) (failure : Failure Float) : Trouble :=
  ⟨s!"{s.method.name} simplex stopped after {s.iterations} iterations",
    failure.message Layout.plain.text⟩

/-- Moves until the solve is complete, and after each of them the step that it reached. -/
def solveByStep (format : Format) : Nat → Solver Float → Option Output
  | 0, _ => none
  | n + 1, s =>
    if s.currentStep = .complete then some ⟨[], [], none⟩
    else
      match s.move with
      | (next, .error failure) => some ⟨[], s.step.2, some (stopped next failure)⟩
      | (next, .ok _) =>
        (solveByStep format n next).map (Output.after ⟨showStep format next, s.step.2, none⟩)

/-- A solve in one go, and its solution. -/
def solveAtOnce (format : Format) (count fuel : Nat) (s : Solver Float) : Option Output :=
  match s.solve fuel with
  | (_, none) => none
  | (last, some (.error failure)) => some ⟨[], s.solveEvents fuel, some (stopped last failure)⟩
  | (last, some (.ok solution)) =>
    some ⟨showSolution format count last.iterations solution, s.solveEvents fuel, none⟩

/-- A solve of a problem with `count` variables, shown step by step or as its solution. -/
def solve (fuel : Nat) (s : Solver Float) (count : Nat) (steps : Bool) (format : Format) :
    Option Output :=
  (if steps then solveByStep format fuel s else solveAtOnce format count fuel s).map
    (Output.after ⟨[], [.solving s.method], none⟩)

/-- a new solve with the tolerance of this program -/
def newSolver (method : Method) (limit : Option Nat) (p : Problem Float) : Solver Float :=
  (Solver.start method p tolerance).withMaxIterations limit

/-! ### commands -/

def showProblem (format : Format) (p : Problem Float) : String :=
  match format with
  | .json => prettyJson (JsonForm.toJson p)
  | .pretty => p.text

def showDual (fuel : Nat) (p : Problem Float) (alsoSolve : Bool) (format : Format) :
    Option Output :=
  match Reformulation.dual.apply p with
  | .error failure =>
    some (.failing "Building the dual task" (failure.message Layout.plain.text))
  | .ok (d, events) =>
    let shown : Output := ⟨[showProblem format d], events, none⟩
    if alsoSolve then
      (solve fuel (newSolver .dual none d) d.variableCount false format).map fun solved =>
        (shown.after ⟨[""], [], none⟩).after solved
    else some shown

def showCheck (file : String) (p : Problem Float) : Output :=
  ⟨[s!"✓ " ++ file ++ " is valid", s!"  {p.variableCount} variables",
    s!"  {p.constraintCount} constraints", s!"  objective: {p.sense.symbol}"], [], none⟩

/-- a command on a problem that was read from its file -/
def perform (fuel : Nat) (command : Command) (file : String) (p : Problem Float) :
    Option Output :=
  match command with
  | .solve method steps format limit =>
    solve fuel (newSolver method limit p) p.variableCount steps format
  | .dual alsoSolve format => showDual fuel p alsoSolve format
  | .standard method =>
    let q := method.transform p
    some ⟨[q.text], [.toEqualities p q], none⟩
  | .check => some (showCheck file p)

/-- A command, given the text of its file or the reason why there is none. -/
def run (fuel : Nat) (i : Invocation) (source : Except String String) : Option Output :=
  match source with
  | .error cause => some (.failing ("Reading " ++ i.file) cause)
  | .ok text =>
    match Problem.read text with
    | .error e => some (.failing ("Parsing " ++ i.file) e.message)
    | .ok p => perform fuel i.command i.file p

end CommandLine

end LinearProgram
