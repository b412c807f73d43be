import Mathlib.Algebra.Order.Ring.Rat
import LinearProgram.Scalar

/-!
# Scalars with exact units

A pivot writes its own column and computes all the others.  The other basic columns hold a one
and zeros, and they come out of the computation with a one and zeros again.  `ExactUnits` says
what this asks of the numbers; `==` is their own comparison, which may identify two zeros.

* `ExactUnits Rat`   every rational is finite and the laws are those of a field.
-/

namespace LinearProgram

/-- zeros and ones survive the arithmetic of a pivot on finite numbers -/
class ExactUnits (α : Type) [Scalar α] where
  IsFinite : α → Prop
  zero_beq_zero : (0 : α) == 0
  one_beq_one : (1 : α) == 1
  not_zero_of_one {a : α} : a == 1 → ¬ a == 0
  isFinite_of_zero {a : α} : a == 0 → IsFinite a
  isFinite_neg {a : α} : IsFinite a → IsFinite (-a)
  /-- a zero divided by a finite number that is none -/
  div_of_zero {a p : α} : a == 0 → IsFinite p → ¬ p == 0 → a / p == 0
  /-- taking off a multiple of a zero changes nothing that matters -/
  sub_of_zero {a f z : α} : a == 0 → IsFinite f → z == 0 → a - f * z == 0
  sub_of_one {a f z : α} : a == 1 → IsFinite f → z == 0 → a - f * z == 1
  isFinite_sub {a f z : α} : IsFinite a → IsFinite f → z == 0 → IsFinite (a - f * z)
  /-- a number cancels against itself times one -/
  sub_mul_one {f o : α} : IsFinite f → o == 1 → f - f * o == 0
  /-- what lies beyond a tolerance is not zero -/
  not_zero_of_lt {t a : α} : 0 ≤ t → t < a → ¬ a == 0
  not_zero_of_lt_neg {t a : α} : 0 ≤ t → a < -t → ¬ a == 0

/-! ### rationals -/

theorem beq_rat_iff (a b : Rat) : a == b ↔ a = b := beq_iff_eq

instance : ExactUnits Rat where
  IsFinite _ := True
  zero_beq_zero := (beq_rat_iff _ _).2 rfl
  one_beq_one := (beq_rat_iff _ _).2 rfl
  not_zero_of_one h h0 := one_ne_zero (((beq_rat_iff _ _).1 h).symm.trans ((beq_rat_iff _ _).1 h0))
  isFinite_of_zero _ := trivial
  isFinite_neg _ := trivial
  div_of_zero h _ _ := by
    rw [beq_rat_iff] at h ⊢
    rw [h, zero_div]
  sub_of_zero h _ hz := by
    rw [beq_rat_iff] at h hz ⊢
    rw [h, hz, mul_zero, sub_zero]
  sub_of_one h _ hz := by
    rw [beq_rat_iff] at h hz ⊢
    rw [h, hz, mul_zero, sub_zero]
  isFinite_sub _ _ _ := trivial
  sub_mul_one _ ho := by
    rw [beq_rat_iff] at ho ⊢
    rw [ho, mul_one, sub_self]
  not_zero_of_lt h hlt h0 := by
    rw [beq_rat_iff] at h0
    exact absurd (h0 ▸ hlt) (not_lt.2 h)
  not_zero_of_lt_neg h hlt h0 := by
    rw [beq_rat_iff] at h0
    exact absurd (h0 ▸ hlt) (not_lt.2 (neg_nonpos.2 h))

end LinearProgram
