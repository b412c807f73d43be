/-!
# Doubles as exact numbers

Every finite double is a whole number of units of `2^-1074`.  Without its sign bit the word of a
double is its `rank`: the doubles in order, from zero up to infinity.

* `Double.units`     the magnitude in units, from the rank;
* `Double.rankOf`    the rank nearest to a quotient of units, a tie going to the even rank;
* `roundQuotient`    a quotient to the nearest whole number, a tie going to the even one.
-/

namespace LinearProgram

/-- the whole number nearest to `num / den`, the even one of two -/
def roundQuotient (num den : Nat) : Nat :=
  let q := num / den
  let r := num % den
  if 2 * r < den then q
  else if den < 2 * r then q + 1
  else q + q % 2

namespace Double

/-- the rank of infinity, above all finite ranks -/
def infinityRank : Nat := 2047 <<< 52

def isNegative (x : Float) : Bool := 1 <<< 63 ≤ x.toBits.toNat

def rank (x : Float) : Nat := x.toBits.toNat % 1 <<< 63

def isFinite (x : Float) : Bool := rank x < infinityRank

def isNaN (x : Float) : Bool := infinityRank < rank x

def ofRank (negative : Bool) (rank : Nat) : Float :=
  Float.ofBits (UInt64.ofNat (if negative then 1 <<< 63 + rank else rank))

/-- the number of doublings of the spacing below this rank: spacing is `2 ^ binade` units -/
def binade (rank : Nat) : Nat := rank / 1 <<< 52 - 1

def units (rank : Nat) : Nat :=
  if rank < 1 <<< 52 then rank else (1 <<< 52 + rank % 1 <<< 52) <<< binade rank

/-- The rank nearest to `num / den` units.  Counting on past the largest finite rank leads to
infinity, so what rounds beyond it overflows. -/
def rankOf (num den : Nat) : Nat :=
  let k := Nat.log2 (num / den) - 52
  min infinityRank (roundQuotient num (den <<< k) + k <<< 52)

/-- units in one -/
def unitsPerOne : Nat := 1 <<< 1074

end Double

end LinearProgram
