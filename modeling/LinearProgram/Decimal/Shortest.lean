import LinearProgram.Decimal.Numeral

/-!
# Shortest decimals

The reals that round to a double form an interval around it, closed when its rank is even.  The
shortest decimal of the double is the one in the interval with the fewest digits, and among those
the nearest; of two that are equally near, a format takes the upper one or the even one.

On a grid of powers of ten only the two neighbours of the double have to be tried, since the
interval has no gaps.  Seventeen digits always suffice.
-/

namespace LinearProgram

namespace Double

/-- The interval of a rank, in quarter units: below a power of two the spacing halves. -/
def interval (rank : Nat) : Nat × Nat :=
  let gap := 1 <<< binade rank
  let value := 4 * units rank
  (if rank % 1 <<< 52 = 0 ∧ 0 < binade rank then value - gap else value - 2 * gap, value + 2 * gap)

def quartersPerOne : Nat := 4 * unitsPerOne

/-- the number of digits before the point; for numbers below one, less the zeros after it -/
def magnitude (num den : Nat) : Int :=
  if den ≤ num then (digitChars (num / den)).length
  else 1 - ((digitChars ((den + num - 1) / num - 1)).length : Int)

/-- The nearer of the two neighbours on the grid of multiples of `10^grid` that lies in the
interval of the rank. -/
def onGrid? (tieUp : Bool) (rank : Nat) (grid : Int) : Option Nat :=
  let (low, high) := interval rank
  let num := 4 * units rank * Nat.pow 10 (-grid).toNat
  let den := quartersPerOne * Nat.pow 10 grid.toNat
  let low := low * Nat.pow 10 (-grid).toNat
  let high := high * Nat.pow 10 (-grid).toNat
  let below := num / den
  let closed := rank % 2 = 0
  let hitsBelow := if closed then low ≤ below * den else low < below * den
  let hitsAbove := if closed then (below + 1) * den ≤ high else (below + 1) * den < high
  if hitsBelow ∧ hitsAbove then
    some (if tieUp then (2 * num + den) / (2 * den) else roundQuotient num den)
  else if hitsBelow then some below
  else if hitsAbove then some (below + 1)
  else none

/-- The shortest decimal of a finite, non-zero rank, as digits and the power of ten of the last
one. -/
def shortest (tieUp : Bool) (rank : Nat) : Nat × Int :=
  let top := magnitude (units rank) unitsPerOne
  ((List.range 17).findSome? fun (n : Nat) =>
    let grid := top - (n + 1)
    (onGrid? tieUp rank grid).map (·, grid)).getD (0, 0)

end Double

end LinearProgram
