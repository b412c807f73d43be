import Mathlib.Algebra.BigOperators.Ring.Finset
import Mathlib.Algebra.Order.BigOperators.Group.List
import Mathlib.Algebra.Order.Ring.Rat
import Mathlib.Data.List.GetD
import Mathlib.Tactic.Linarith
import Mathlib.Tactic.Ring
import LinearProgram.Problem.Feasible

/-!
# Sums of products

`dot` is linear in its first row, splits along `++`, and stops where either row does.

* `dot_axis`              the entry at a place;
* `eq_of_dot_eq`          rows that agree at all points are equal;
* `dot_eq_sum`            the sum over the places of a range;
* `dot_ge_of_forall_ge`   a bound for entries above `-t` at a non-negative point;
* `dot_map_dot`           rows added up before or after the sum of products.
-/

namespace LinearProgram

variable {a b x y : List Rat}

theorem dot_comm (a x : List Rat) : dot a x = dot x a := by
  induction a generalizing x with
  | nil => rw [dot_nil_left, dot_nil_right]
  | cons c a ih =>
    cases x with
    | nil => rw [dot_nil_left, dot_nil_right]
    | cons u x => rw [dot_cons, dot_cons, ih, mul_comm]

theorem dot_append (h : a.length = x.length) : dot (a ++ b) (x ++ y) = dot a x + dot b y := by
  induction a generalizing x with
  | nil =>
    obtain rfl := List.eq_nil_of_length_eq_zero h.symm
    rw [List.nil_append, List.nil_append, dot_nil_left, zero_add]
  | cons c a ih =>
    cases x with
    | nil => cases h
    | cons u x =>
      have ih := ih (Nat.succ.inj h)
      rw [List.cons_append, List.cons_append, dot_cons, dot_cons, ih, add_assoc]

theorem dot_replicate_zero (n : Nat) (x : List Rat) : dot (List.replicate n 0) x = 0 := by
  induction n generalizing x with
  | zero => exact dot_nil_left x
  | succ n ih =>
    cases x with
    | nil => exact dot_nil_right _
    | cons u x => rw [List.replicate_succ, dot_cons, ih, zero_mul, zero_add]

/-- one entry among zeros reads one place -/
theorem dot_set_replicate {n k : Nat} (hk : k < n) (s : Rat) (x : List Rat) :
    dot ((List.replicate n 0).set k s) x = s * x.getD k 0 := by
  induction n generalizing k x with
  | zero => exact absurd hk (Nat.not_lt_zero k)
  | succ n ih =>
    rw [List.replicate_succ]
    cases x with
    | nil => rw [dot_nil_right, List.getD_nil, mul_zero]
    | cons u x =>
      cases k with
      | zero => rw [List.set_cons_zero, dot_cons, dot_replicate_zero, add_zero, List.getD_cons_zero]
      | succ k =>
        rw [List.set_cons_succ, dot_cons, ih (Nat.lt_of_succ_lt_succ hk), zero_mul, zero_add,
          List.getD_cons_succ]

/-- the direction of one place: a one there and zeros in all others -/
def axis (n j : Nat) : List Rat := (List.replicate n 0).set j 1

@[simp] theorem length_axis (n j : Nat) : (axis n j).length = n := by simp [axis]

theorem axis_nonneg (n j : Nat) : ∀ v ∈ axis n j, 0 ≤ v := by
  intro v hv
  rcases List.mem_or_eq_of_mem_set hv with hv | rfl
  · simp [List.eq_of_mem_replicate hv]
  · exact zero_le_one

theorem dot_axis {n j : Nat} (hj : j < n) (a : List Rat) : dot a (axis n j) = a.getD j 0 := by
  rw [dot_comm, axis, dot_set_replicate hj, one_mul]

theorem eq_of_dot_eq (hlen : a.length = b.length)
    (h : ∀ x, x.length = a.length → dot a x = dot b x) : a = b := by
  apply List.ext_getElem hlen
  intro j hja hjb
  have hj := h (axis a.length j) (length_axis _ _)
  rwa [dot_axis hja, dot_axis hja, List.getD_eq_getElem _ _ hja, List.getD_eq_getElem _ _ hjb] at hj

theorem dot_map_neg (a x : List Rat) : dot (a.map (-·)) x = -dot a x := by
  induction a generalizing x with
  | nil => rw [List.map_nil, dot_nil_left, neg_zero]
  | cons c a ih =>
    cases x with
    | nil => rw [dot_nil_right, dot_nil_right, neg_zero]
    | cons u x => rw [List.map_cons, dot_cons, dot_cons, ih, neg_add, neg_mul]

theorem dot_map_div (a x : List Rat) (d : Rat) : dot (a.map (· / d)) x = dot a x / d := by
  induction a generalizing x with
  | nil => rw [List.map_nil, dot_nil_left, zero_div]
  | cons c a ih =>
    cases x with
    | nil => rw [dot_nil_right, dot_nil_right, zero_div]
    | cons u x => rw [List.map_cons, dot_cons, dot_cons, ih, add_div, div_mul_eq_mul_div]

theorem dot_zipWith_sub (h : a.length = b.length) (f : Rat) (x : List Rat) :
    dot (List.zipWith (fun z p => z - f * p) a b) x = dot a x - f * dot b x := by
  induction a generalizing b x with
  | nil =>
    obtain rfl := List.eq_nil_of_length_eq_zero h.symm
    rw [List.zipWith_nil_left, dot_nil_left, mul_zero, sub_zero]
  | cons c a ih =>
    cases b with
    | nil => cases h
    | cons d b =>
      cases x with
      | nil => rw [dot_nil_right, dot_nil_right, dot_nil_right, mul_zero, sub_zero]
      | cons u x =>
        rw [List.zipWith_cons_cons, dot_cons, dot_cons, dot_cons, ih (Nat.succ.inj h)]
        ring

/-- a step from one point in the direction of another -/
theorem dot_zipWith_add (h : x.length = y.length) (e : Rat) (a : List Rat) :
    dot a (List.zipWith (fun u v => u + e * v) x y) = dot a x + e * dot a y := by
  induction a generalizing x y with
  | nil => rw [dot_nil_left, dot_nil_left, dot_nil_left, mul_zero, add_zero]
  | cons c a ih =>
    cases x with
    | nil =>
      obtain rfl := List.eq_nil_of_length_eq_zero h.symm
      rw [List.zipWith_nil_left, dot_nil_right, mul_zero, add_zero]
    | cons u x =>
      cases y with
      | nil => cases h
      | cons v y =>
        rw [List.zipWith_cons_cons, dot_cons, dot_cons, dot_cons, ih (Nat.succ.inj h)]
        ring

theorem dot_take (a x : List Rat) : dot (a.take x.length) x = dot a x := by
  induction a generalizing x with
  | nil => rw [List.take_nil]
  | cons c a ih =>
    cases x with
    | nil => rw [dot_nil_right, dot_nil_right]
    | cons u x => rw [List.length_cons, List.take_succ_cons, dot_cons, dot_cons, ih]

theorem dot_eq_sum {n : Nat} (h : x.length = n) :
    dot a x = ∑ j ∈ Finset.range n, a.getD j 0 * x.getD j 0 := by
  induction a generalizing x n with
  | nil =>
    rw [dot_nil_left]
    refine (Finset.sum_eq_zero fun j _ => ?_).symm
    rw [List.getD_nil, zero_mul]
  | cons c a ih =>
    cases x with
    | nil =>
      obtain rfl : n = 0 := h.symm
      rw [dot_nil_right, Finset.range_zero, Finset.sum_empty]
    | cons u x =>
      obtain rfl : n = x.length + 1 := h.symm
      rw [dot_cons, ih rfl, Finset.sum_range_succ']
      simp only [List.getD_cons_zero, List.getD_cons_succ]
      rw [add_comm]

theorem dot_ge_of_forall_ge {t : Rat} (ht : 0 ≤ t) (ha : ∀ c ∈ a, -t ≤ c)
    (hx : ∀ u ∈ x, 0 ≤ u) : -(t * x.sum) ≤ dot a x := by
  induction a generalizing x with
  | nil =>
    have hsum : 0 ≤ x.sum := List.sum_nonneg hx
    have hmul := mul_nonneg ht hsum
    rw [dot_nil_left]
    linarith
  | cons c a ih =>
    cases x with
    | nil => rw [dot_nil_right, List.sum_nil, mul_zero, neg_zero]
    | cons u x =>
      have ih := ih (fun c hc => ha c (List.mem_cons_of_mem _ hc))
        fun u hu => hx u (List.mem_cons_of_mem _ hu)
      have hfirst : -t * u ≤ c * u :=
        mul_le_mul_of_nonneg_right (ha c List.mem_cons_self) (hx u List.mem_cons_self)
      rw [dot_cons, List.sum_cons]
      linarith

theorem dot_nonneg (ha : ∀ c ∈ a, 0 ≤ c) (hx : ∀ u ∈ x, 0 ≤ u) : 0 ≤ dot a x := by
  have hge := dot_ge_of_forall_ge le_rfl (a := a) (fun c hc => by simpa using ha c hc) hx
  rwa [zero_mul, neg_zero] at hge

/-! ### many rows -/

theorem dot_map_mul_sub {β : Type} (l : List β) (s : Rat) (f g : β → Rat) (y : List Rat) :
    dot y (l.map fun i => s * (f i - g i)) = s * (dot y (l.map f) - dot y (l.map g)) := by
  induction l generalizing y with
  | nil => simp
  | cons i l ih =>
    cases y with
    | nil => simp
    | cons v y =>
      rw [List.map_cons, List.map_cons, List.map_cons, dot_cons, dot_cons, dot_cons, ih]
      ring

/-- a sum of the values of rows at a point is the value of the sum of the rows -/
theorem dot_map_dot (rows : List (List Rat)) (y : List Rat) {n : Nat} (hx : x.length = n) :
    dot y (rows.map (dot · x)) =
      ∑ j ∈ Finset.range n, dot y (rows.map (·.getD j 0)) * x.getD j 0 := by
  induction rows generalizing y with
  | nil => simp
  | cons row rows ih =>
    cases y with
    | nil => simp
    | cons v y =>
      simp only [List.map_cons, dot_cons, add_mul]
      rw [Finset.sum_add_distrib, ih, dot_eq_sum hx, Finset.mul_sum]
      simp only [mul_assoc]

end LinearProgram
