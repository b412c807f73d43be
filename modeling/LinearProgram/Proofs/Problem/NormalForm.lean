import LinearProgram.Problem.StandardForm

/-!
# The standard form as a normal form

A problem of equalities without a right side below zero has no row to turn and no slack to add, so
it is its own standard form.  The standard form of any problem is such a problem, as long as one of
each right side and its negation is not below zero; and so the forms of forms are no news.

* `NormalForm.standardForm_eq`      a normal form is its own standard form;
* `normalForm_standardForm`         the standard form is a normal form.
-/

namespace LinearProgram

variable {α : Type} [Scalar α]

theorem Constraint.withSlacks_of_equal {cs : List (Constraint α)}
    (h : ∀ c ∈ cs, c.relation = .equal) (used : Nat) : withSlacks 0 used cs = cs := by
  induction cs with
  | nil => rfl
  | cons c rest ih =>
    obtain ⟨hc, hrest⟩ := List.forall_mem_cons.1 h
    have hslack : c.slack = none := by rw [slack, hc]
    rw [withSlacks, hslack]
    dsimp only
    rw [ih hrest, List.replicate_zero, List.append_nil, ← hc]

namespace Problem

/-- only equalities, and no right side below zero -/
structure NormalForm (p : Problem α) : Prop where
  relation_eq : ∀ c ∈ p.constraints, c.relation = .equal
  rhs_nonneg : ∀ c ∈ p.constraints, 0 ≤ c.rhs

variable {p : Problem α}

theorem NormalForm.standardForm_eq (h : p.NormalForm) : p.standardForm = p := by
  have hcount : p.inequalityCount = 0 := by
    rw [inequalityCount, List.countP_eq_zero]
    intro c hc
    rw [Constraint.isInequality, h.relation_eq c hc]
    decide
  have hkept : p.constraints.map Constraint.withNonnegRhs = p.constraints :=
    (List.map_congr_left fun c hc => if_pos (h.rhs_nonneg c hc)).trans (List.map_id _)
  refine Problem.ext ?_ rfl ?_
  · show p.objective ++ List.replicate p.inequalityCount 0 = _
    rw [hcount, List.replicate_zero, List.append_nil]
  · show Constraint.withSlacks p.inequalityCount 0 (p.constraints.map _) = _
    rw [hcount, hkept, Constraint.withSlacks_of_equal h.relation_eq]

theorem normalForm_standardForm (hsign : ∀ c ∈ p.constraints, ¬ 0 ≤ c.rhs → 0 ≤ -c.rhs) :
    p.standardForm.NormalForm := by
  refine ⟨fun d hd => p.relation_of_mem_equalities _ _ hd, fun d hd => ?_⟩
  obtain ⟨_, hturned, -, -, hrhs⟩ := Constraint.exists_of_mem_withSlacks hd
  obtain ⟨c, hc, rfl⟩ := List.mem_map.1 hturned
  rw [hrhs, Constraint.withNonnegRhs]
  split
  next h => exact h
  next h => exact hsign c hc h

end Problem

end LinearProgram
