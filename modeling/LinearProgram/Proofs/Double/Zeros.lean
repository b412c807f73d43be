import LinearProgram.Proofs.Double.Units

/-!
# Doubles but for the sign of a zero

A double has two zeros.  They compare alike, and an operation that tells them apart gives zeros
again, unless it multiplies or divides by one of them.

* `Double.Alike`            equal, or both of them zero;
* `Alike.lt_iff`            comparisons do not see the sign of a zero;
* `Alike.sub`               a difference keeps it to itself;
* `Alike.abs_div`           an absolute ratio loses it;
* `Double.neg_le_neg_iff`   negation turns the order around.
-/

namespace LinearProgram.Double
open Float.Model Float.Model.UnpackedFloat

/-- equal but for the sign of a zero -/
def Alike (x y : Float) : Prop := x = y ∨ (x == 0 ∧ y == 0)

theorem Alike.refl (x : Float) : Alike x x := Or.inl rfl

/-! ### comparisons -/

theorem compare_zero_left (s s' : Sign) (u : UnpackedFloat) :
    (UnpackedFloat.zero s).compare u = (UnpackedFloat.zero s').compare u := by
  cases u with
  | notANumber => rfl
  | infinity t => cases t <;> rfl
  | zero t => rfl
  | finite t m e hm => cases t <;> rfl

theorem compare_zero_right (u : UnpackedFloat) (s s' : Sign) :
    u.compare (.zero s) = u.compare (.zero s') := by
  cases u with
  | notANumber => rfl
  | infinity t => cases t <;> rfl
  | zero t => rfl
  | finite t m e hm => cases t <;> rfl

theorem Alike.compare_eq {x x' y y' : Float} (hx : Alike x x') (hy : Alike y y') :
    (unpacked x).compare (unpacked y) = (unpacked x').compare (unpacked y') := by
  have hleft : ∀ u, (unpacked x).compare u = (unpacked x').compare u := by
    intro u
    rcases hx with rfl | ⟨h, h'⟩
    · rfl
    · obtain ⟨s, hs⟩ := (beq_zero_iff x).1 h
      obtain ⟨s', hs'⟩ := (beq_zero_iff x').1 h'
      rw [hs, hs', compare_zero_left]
  rcases hy with rfl | ⟨h, h'⟩
  · exact hleft _
  · obtain ⟨s, hs⟩ := (beq_zero_iff y).1 h
    obtain ⟨s', hs'⟩ := (beq_zero_iff y').1 h'
    rw [hleft, hs, hs', compare_zero_right]

theorem Alike.lt_iff {x x' y y' : Float} (hx : Alike x x') (hy : Alike y y') :
    x < y ↔ x' < y' := by
  rw [Double.lt_iff, Double.lt_iff, hx.compare_eq hy]

theorem Alike.le_iff {x x' y y' : Float} (hx : Alike x x') (hy : Alike y y') :
    x ≤ y ↔ x' ≤ y' := by
  rw [Double.le_iff, Double.le_iff, hx.compare_eq hy]

theorem Alike.beq_zero_iff {x x' : Float} (hx : Alike x x') : x == 0 ↔ x' == 0 := by
  rw [beq_iff, beq_iff, hx.compare_eq (Alike.refl 0)]

theorem Alike.eq_of_not_zero {x x' : Float} (hx : Alike x x') (h : ¬ x == 0) : x = x' :=
  hx.resolve_right fun hzero => h hzero.1

/-! ### negation -/

theorem compare_neg (u v : UnpackedFloat) : u.neg.compare v.neg = v.compare u := by
  have hfinite (m n : Nat) (e f : Int) : (compare e f).then (compare m n) =
      ((compare f e).then (compare n m)).swap := by
    rw [Ordering.swap_then, ← Std.OrientedCmp.eq_swap, ← Std.OrientedCmp.eq_swap]
  cases u with
  | notANumber =>
    cases v with
    | notANumber => rfl
    | infinity t => cases t <;> rfl
    | zero t => rfl
    | finite t => cases t <;> rfl
  | infinity s =>
    cases v with
    | infinity t => cases s <;> cases t <;> rfl
    | _ => cases s <;> rfl
  | zero s =>
    cases v with
    | infinity t => cases t <;> rfl
    | finite t => cases t <;> rfl
    | _ => rfl
  | finite s m e hm =>
    cases v with
    | infinity t => cases s <;> cases t <;> rfl
    | finite t n f hn =>
      cases s <;> cases t
      · exact congrArg some (hfinite m n e f)
      · rfl
      · rfl
      · exact congrArg some (hfinite n m f e).symm
    | _ => cases s <;> rfl

theorem neg_le_neg_iff (x y : Float) : -x ≤ -y ↔ y ≤ x := by
  rw [le_iff, le_iff, unpacked_neg, unpacked_neg, compare_neg]

theorem neg_beq_zero {x : Float} (h : x == 0) : -x == 0 := by
  obtain ⟨s, hs⟩ := (beq_zero_iff x).1 h
  exact (beq_zero_iff _).2 ⟨-s, by rw [unpacked_neg, hs]; rfl⟩

/-! ### differences and ratios -/

theorem Alike.sub {x x' : Float} (hx : Alike x x') (y : Float) : Alike (x - y) (x' - y) := by
  rcases hx with rfl | ⟨h, h'⟩
  · exact Alike.refl _
  obtain ⟨s, hs⟩ := (Double.beq_zero_iff x).1 h
  obtain ⟨s', hs'⟩ := (Double.beq_zero_iff x').1 h'
  -- against anything but a zero, the difference is the same for both zeros
  have hsame (hsub : UnpackedFloat.sub Format.binary64 (.zero s) (unpacked y) =
      UnpackedFloat.sub Format.binary64 (.zero s') (unpacked y)) : x - y = x' - y := by
    show Float.ofModel (Float.Model.pack (UnpackedFloat.sub _ (unpacked x) (unpacked y))) =
      Float.ofModel (Float.Model.pack (UnpackedFloat.sub _ (unpacked x') (unpacked y)))
    rw [hs, hs', hsub]
  cases hy : unpacked y with
  | zero t =>
    obtain ⟨u, hu⟩ := (unpacked_sub_zero hy).1 s hs
    obtain ⟨u', hu'⟩ := (unpacked_sub_zero hy).1 s' hs'
    exact Or.inr ⟨(Double.beq_zero_iff _).2 ⟨u, hu⟩, (Double.beq_zero_iff _).2 ⟨u', hu'⟩⟩
  | _ => exact Or.inl (hsame (by rw [hy]; rfl))

/-- the difference with a multiple, which is not taken where the factor is a zero -/
theorem Alike.sub_multiple {x x' f f' : Float} (hx : Alike x x') (hf : Alike f f') (a : Float) :
    Alike (if f == 0 then x else x - f * a) (if f' == 0 then x' else x' - f' * a) := by
  by_cases hzero : f == 0
  · rw [if_pos hzero, if_pos (hf.beq_zero_iff.1 hzero)]
    exact hx
  · rw [if_neg hzero, if_neg fun h => hzero (hf.beq_zero_iff.2 h), hf.eq_of_not_zero hzero]
    exact hx.sub _

theorem sub_multiple_eq {f f' : Float} (hf : Alike f f') (x a : Float) :
    (if f == 0 then x else x - f * a) = if f' == 0 then x else x - f' * a := by
  by_cases hzero : f == 0
  · rw [if_pos hzero, if_pos (hf.beq_zero_iff.1 hzero)]
  · rw [if_neg hzero, if_neg fun h => hzero (hf.beq_zero_iff.2 h), hf.eq_of_not_zero hzero]

theorem abs_pack_zero (s : Sign) :
    (Float.Model.pack (.zero s)).abs = Float.Model.pack (.zero .positive) := by
  cases s <;> rfl

theorem Alike.abs_div {x x' : Float} (hx : Alike x x') (y : Float) :
    (x / y).abs = (x' / y).abs := by
  rcases hx with rfl | ⟨h, h'⟩
  · rfl
  obtain ⟨s, hs⟩ := (Double.beq_zero_iff x).1 h
  obtain ⟨s', hs'⟩ := (Double.beq_zero_iff x').1 h'
  have hquot {z : Float} {u : Sign} (hz : unpacked z = .zero u) : (z / y).abs =
      .ofModel (Float.Model.pack (div Format.binary64 (.zero u) (unpacked y))).abs := by
    rw [← hz]
    rfl
  have habs (t : Sign) : (Float.Model.pack (.zero (s / t))).abs =
      (Float.Model.pack (.zero (s' / t))).abs := by
    rw [abs_pack_zero, abs_pack_zero]
  -- a zero over anything is a zero or a NaN
  rw [hquot hs, hquot hs']
  cases unpacked y with
  | infinity t => exact congrArg Float.ofModel (habs t)
  | finite t m e hm => exact congrArg Float.ofModel (habs t)
  | _ => rfl

end LinearProgram.Double
