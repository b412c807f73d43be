import LinearProgram.CommandLine.Run

/-!
# The program

Reads the file that the command line names, runs the command, and writes what it prints, logs and
fails with.
-/

namespace LinearProgram

namespace CommandLine

/-- the help text -/
def usage : String := "\n".intercalate
  ["Step through primal and dual simplex solves of linear programs", "",
    "Usage: simplex [-v | -q] COMMAND", "",
    "Commands:",
    "  solve FILE [-m primal|dual] [-s] [-f pretty|json] [--max-iterations N]",
    "  dual FILE [--solve] [-f pretty|json]",
    "  standard FILE [-m primal|dual]",
    "  check FILE"]

/-- the wording of what can go wrong with a file -/
def fileTrouble : IO.Error → String
  | .noFileOrDirectory _ code details => s!"{details} (os error {code})"
  | .permissionDenied _ code details => s!"{details} (os error {code})"
  | .inappropriateType _ code details => s!"{details} (os error {code})"
  | e => toString e

/-- the text of a file, or why it cannot be had -/
def readSource (file : String) : IO (Except String String) := do
  try
    match String.fromUTF8? (← IO.FS.readBinFile file) with
    | some text => pure (.ok text)
    | none => pure (.error "stream did not contain valid UTF-8")
  catch e => pure (.error (fileTrouble e))

/-- the output of a command, with as many steps as it takes -/
partial def runToEnd (i : Invocation) (source : Except String String) (fuel : Nat) : IO Output :=
  match run fuel i source with
  | some output => pure output
  | none => runToEnd i source (2 * fuel)

end CommandLine

end LinearProgram

open LinearProgram CommandLine in
def main (args : List String) : IO UInt32 := do
  match read? args with
  | none =>
    IO.eprintln usage
    return 2
  | some .help =>
    IO.println usage
    return 0
  | some (.run i) =>
    let output ← runToEnd i (← readSource i.file) 1000
    IO.print output.stdout
    for line in logLines i.logRank output.events do
      IO.eprintln line
    IO.eprint output.stderr
    return output.code.toUInt32
