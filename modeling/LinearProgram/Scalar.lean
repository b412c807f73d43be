/-!
# The numbers of a linear program

All of the method is written over a `Scalar`: what a problem, a tableau and a pivot need of
their entries.  Two number types are used:

* `Float`   IEEE doubles, the numbers that are read, solved with and printed;
* `Rat`     exact rationals, over which the method is the textbook one.

Only comparisons, negation, `-`, `*`, `/` and the absolute value occur, so both types run the
same definitions.
-/

namespace LinearProgram

/-- what the simplex method asks of its numbers; nothing is assumed of the operations -/
class Scalar (α : Type) extends
    Zero α, One α, Neg α, Sub α, Mul α, Div α, LT α, LE α, BEq α where
  decLt : DecidableLT α
  decLe : DecidableLE α
  /-- the absolute value -/
  abs : α → α
  /-- below the top of the scale: false exactly for numbers no finite bound is above -/
  belowTop : α → Bool

attribute [reducible, instance] Scalar.decLt Scalar.decLe

/-- doubles: `belowTop` fails for positive infinity, and for NaN, which is below nothing -/
instance : Scalar Float where
  zero := 0
  one := 1
  decLt := inferInstance
  decLe := inferInstance
  abs := Float.abs
  belowTop x := x < 1 / 0

/-- rationals: no number is at the top -/
instance : Scalar Rat where
  zero := 0
  one := 1
  decLt := inferInstance
  decLe := inferInstance
  abs := Rat.abs
  belowTop _ := true

@[simp] theorem Scalar.belowTop_rat (q : Rat) : Scalar.belowTop q = true := rfl

@[simp] theorem Scalar.abs_rat (q : Rat) : Scalar.abs q = q.abs := rfl

end LinearProgram
