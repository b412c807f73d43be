import LinearProgram.CommandLine.Switch
import LinearProgram.Decimal.Numeral
import LinearProgram.Method
import LinearProgram.Solver.Event

/-!
# Invocations

The commands of the program, and how they are given on a command line:

* `solve FILE`      solves a problem; `--method`, `--steps`, `--format`, `--max-iterations`;
* `dual FILE`       shows the dual of a problem; `--solve`, `--format`;
* `standard FILE`   shows the standard form of a problem; `--method`;
* `check FILE`      tells whether a file holds a problem.

`-v` and `-q` open and close the log by one level each.  They are understood before and after the
command, but not both in one place; a count after the command replaces one before it.
-/

namespace LinearProgram

namespace CommandLine

inductive Format where
  | pretty
  | json
  deriving DecidableEq

def Format.name : Format → String
  | pretty => "pretty"
  | json => "json"

def Format.ofName? (text : String) : Option Format := [Format.pretty, Format.json].find? (·.name == text)

inductive Command where
  | solve (method : Method) (steps : Bool) (format : Format) (maxIterations : Option Nat)
  | dual (solve : Bool) (format : Format)
  | standard (method : Method)
  | check

structure Invocation where
  command : Command
  file : String
  /-- the rank of the last level that the log shows -/
  logRank : Nat

/-- what a command line asks for -/
inductive Request where
  | help
  | run (invocation : Invocation)

/-! ### switches -/

namespace Switch

def verbose : Switch := ⟨"verbose", some 'v', .counter⟩
def quiet : Switch := ⟨"quiet", some 'q', .counter⟩
def help : Switch := ⟨"help", some 'h', .help⟩
def method : Switch := ⟨"method", some 'm', .value⟩
def steps : Switch := ⟨"steps", some 's', .flag⟩
def format : Switch := ⟨"format", some 'f', .value⟩
def maxIterations : Switch := ⟨"max-iterations", none, .value⟩
def alsoSolve : Switch := ⟨"solve", none, .flag⟩

/-- the switches that are understood everywhere -/
def general : List Switch := [verbose, quiet, help]

end Switch

/-- the commands, each with its switches -/
def commands : List (String × List Switch) :=
  [("solve", [.method, .steps, .format, .maxIterations]), ("dual", [.alsoSolve, .format]),
    ("standard", [.method]), ("check", [])]

/-! ### reading a command line -/

/-- the largest count that is accepted, and one more -/
def countLimit : Nat := UInt64.size

/-- a count in digits, after a plus sign or without one -/
def readCount? (text : String) : Option Nat :=
  let digits :=
    match text.toList with
    | '+' :: rest => rest
    | digits => digits
  if digits.isEmpty || !digits.all Char.isDigit then none
  else (some (digitsValue digits)).filter (· < countLimit)

/-- the log is to be opened and closed at once -/
def Scan.contradictory (s : Scan) : Bool := s.has Switch.verbose && s.has Switch.quiet

/-- at most one file, which has a name, and switches given once where once is the limit -/
def Scan.orderly (s : Scan) : Bool :=
  s.arguments.length ≤ 1 && !s.arguments.contains "" && s.repeatsOnlyCounters

def commandOf? (name : String) (s : Scan) : Option Command :=
  let method? := s.valueOf .method Method.primal Method.ofName?
  let format? := s.valueOf .format Format.pretty Format.ofName?
  if name = "solve" then
    method?.bind fun m =>
      format?.bind fun f =>
        (s.valueOf .maxIterations none fun text => (readCount? text).map some).map fun limit =>
          .solve m (s.has .steps) f limit
  else if name = "dual" then format?.map fun f => .dual (s.has .alsoSolve) f
  else if name = "standard" then method?.map .standard
  else if name = "check" then some .check
  else none

/-- the rank at which the log is open: one level above errors for each `-v`, one less per `-q`,
as far as these are counted -/
def logRank (outer inner : Scan) : Nat :=
  let last (s : Switch) : Nat := (if inner.has s then inner else outer).reading s
  min Level.trace.rank (Level.error.rank + last .verbose - last .quiet)

/-- What the words after the name of a command ask for.  A call for help is heard once the words
before it are in order; that nothing is missing or contradictory is checked last. -/
def readCommand? (outer : Scan) (name : String) (words : List String) : Option Request := do
  let (_, switches) ← commands.find? (·.1 == name)
  let inner ← scan (switches ++ Switch.general) false words
  let command ← commandOf? name inner
  if !inner.orderly then none
  else if inner.has .help then some .help
  else if inner.contradictory || outer.contradictory then none
  else inner.arguments.head?.map fun file => .run ⟨command, file, logRank outer inner⟩

/-- what a command line asks for, or nothing if it is not understood -/
def read? (words : List String) : Option Request :=
  (scan Switch.general true words).bind fun outer =>
    if outer.has .help then some .help
    else
      match outer.arguments with
      | [] => none
      | ["help"] => some .help
      | ["help", name] =>
        if name = "help" || commands.any (·.1 == name) then some .help else none
      | name :: words => readCommand? outer name words

end CommandLine

end LinearProgram
