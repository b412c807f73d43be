import LinearProgram.Decimal.Layout
import LinearProgram.Problem

/-!
# Problems as text

One line per constraint, `a1 ... am REL b`, and a last line `c1 ... cm max` or `c1 ... cm min`.
Parts of a line are set apart by one blank.
-/

namespace LinearProgram

/-- numbers, each followed by a blank -/
def spaced (numbers : List Float) : List Char := numbers.flatMap fun x => Layout.plain.chars x ++ [' ']

def Constraint.chars (c : Constraint Float) : List Char :=
  spaced c.coefficients ++ c.relation.symbol.toList ++ ' ' :: Layout.plain.chars c.rhs

namespace Problem

def objectiveChars (p : Problem Float) : List Char :=
  spaced p.objective ++ p.sense.symbol.toList

def chars (p : Problem Float) : List Char :=
  (p.constraints.flatMap fun c => c.chars ++ ['\n']) ++ p.objectiveChars

def text (p : Problem Float) : String := String.ofList p.chars

end Problem

end LinearProgram
