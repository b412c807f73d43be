import Mathlib.Algebra.Order.Ring.Rat
import Mathlib.Tactic.Linarith
import LinearProgram.Problem.Feasible

/-!
# Senses as signs

A maximisation and a minimisation differ by a sign.  Multiplied by it, the comparisons of both
read as one: something is not negative, or positive.

* `Sense.prefers_iff`   objectives that are at least as good;
* `Sense.beats_iff`     objectives that are better.
-/

namespace LinearProgram

namespace Sense

/-- one for a maximisation, minus one for a minimisation -/
def sign : Sense → Rat
  | maximize => 1
  | minimize => -1

@[simp] theorem sign_maximize : sign maximize = 1 := rfl
@[simp] theorem sign_minimize : sign minimize = -1 := rfl

@[simp] theorem sign_flipped (s : Sense) : s.flipped.sign = -s.sign := by
  cases s <;> simp [flipped]

theorem sign_mul_self (s : Sense) : s.sign * s.sign = 1 := by
  cases s <;> simp

/-- a sign taken twice -/
theorem sign_mul_sign_mul (s : Sense) (a : Rat) : s.sign * (s.sign * a) = a := by
  rw [← mul_assoc, sign_mul_self, one_mul]

theorem prefers_iff (s : Sense) (a b : Rat) : s.Prefers a b ↔ 0 ≤ s.sign * (a - b) := by
  cases s with
  | maximize => show b ≤ a ↔ 0 ≤ 1 * (a - b); simp
  | minimize => show a ≤ b ↔ 0 ≤ -1 * (a - b); simp

theorem beats_iff (s : Sense) (a b : Rat) : s.Beats a b ↔ 0 < s.sign * (a - b) := by
  cases s with
  | maximize => show b < a ↔ 0 < 1 * (a - b); simp
  | minimize => show a < b ↔ 0 < -1 * (a - b); simp

end Sense

end LinearProgram
