import LinearProgram.Problem

/-!
# Standard forms

A problem whose rows are all equalities, reached by giving every inequality a slack column of
its own, after the columns of the problem and in the order of the rows.  A row is first
oriented, that is kept or negated; then `<=` takes the slack `+1` and `>=` the surplus `-1`.

* `Problem.standardForm`       rows oriented so that the right side is not negative;
* `Problem.dualStandardForm`   rows oriented so that no `>=` is left: every slack is `+1`, and
                               right sides may be negative.
-/

namespace LinearProgram

variable {α : Type} [Scalar α]

namespace Constraint

/-- the coefficient of the column that turns the row into an equality -/
def slack (c : Constraint α) : Option α :=
  match c.relation with
  | .lessEqual => some 1
  | .greaterEqual => some (-1)
  | .equal => none

def isInequality (c : Constraint α) : Bool := c.relation != .equal

theorem isInequality_iff_slack {c : Constraint α} : c.isInequality ↔ c.slack.isSome := by
  rw [isInequality, slack]
  cases c.relation <;> simp

theorem isInequality_turned {c d : Constraint α} (h : d = c ∨ d = c.negated) :
    d.isInequality = c.isInequality := by
  rcases h with rfl | rfl
  · rfl
  · rw [isInequality, isInequality, relation_negated]
    cases c.relation <;> rfl

/-- The rows as equalities over `extra` more columns, of which the first `used` are taken by
earlier rows. -/
def withSlacks (extra : Nat) : Nat → List (Constraint α) → List (Constraint α)
  | _, [] => []
  | used, c :: rest =>
    match c.slack with
    | some s =>
      ⟨c.coefficients ++ (List.replicate extra 0).set used s, .equal, c.rhs⟩ ::
        withSlacks extra (used + 1) rest
    | none =>
      ⟨c.coefficients ++ List.replicate extra 0, .equal, c.rhs⟩ :: withSlacks extra used rest

theorem exists_of_mem_withSlacks {extra used : Nat} {cs : List (Constraint α)} {d : Constraint α}
    (h : d ∈ withSlacks extra used cs) :
    ∃ c ∈ cs, d.coefficients.length = c.coefficients.length + extra ∧ d.relation = .equal ∧
      d.rhs = c.rhs := by
  induction cs generalizing used with
  | nil => exact absurd h List.not_mem_nil
  | cons c rest ih =>
    rw [withSlacks] at h
    split at h
    all_goals
      rcases List.mem_cons.1 h with rfl | h
      · exact ⟨c, List.mem_cons_self, by simp, rfl, rfl⟩
      · obtain ⟨c', hc', hd⟩ := ih h
        exact ⟨c', List.mem_cons_of_mem _ hc', hd⟩

@[simp] theorem length_withSlacks (extra used : Nat) (cs : List (Constraint α)) :
    (withSlacks extra used cs).length = cs.length := by
  induction cs generalizing used with
  | nil => rfl
  | cons c rest ih =>
    rw [withSlacks]
    split <;> simp [ih]

/-- turned so that the right side is not below zero, NaN counting as below -/
def withNonnegRhs (c : Constraint α) : Constraint α := if 0 ≤ c.rhs then c else c.negated

/-- turned so that an inequality reads `<=` -/
def asLessEqual (c : Constraint α) : Constraint α :=
  if c.relation = .lessEqual then c else c.negated

@[simp] theorem length_withNonnegRhs (c : Constraint α) :
    c.withNonnegRhs.coefficients.length = c.coefficients.length := by
  rw [withNonnegRhs]; split <;> simp

@[simp] theorem length_asLessEqual (c : Constraint α) :
    c.asLessEqual.coefficients.length = c.coefficients.length := by
  rw [asLessEqual]; split <;> simp

end Constraint

namespace Problem

/-- the number of rows that are not equalities -/
def inequalityCount (p : Problem α) : Nat := p.constraints.countP (·.isInequality)

/-- every row turned by `orient`, then one slack column for each inequality -/
def equalities (orient : Constraint α → Constraint α)
    (hlen : ∀ c, (orient c).coefficients.length = c.coefficients.length)
    (p : Problem α) : Problem α where
  objective := p.objective ++ List.replicate p.inequalityCount 0
  sense := p.sense
  constraints := Constraint.withSlacks p.inequalityCount 0 (p.constraints.map orient)
  width_eq d hd := by
    obtain ⟨_, hturned, hd, -, -⟩ := Constraint.exists_of_mem_withSlacks hd
    obtain ⟨c, hc, rfl⟩ := List.mem_map.1 hturned
    rw [hd, hlen, p.width_eq c hc, List.length_append, List.length_replicate]

theorem withNonnegRhs_turned (c : Constraint α) :
    c.withNonnegRhs = c ∨ c.withNonnegRhs = c.negated := by
  rw [Constraint.withNonnegRhs]
  split
  · exact Or.inl rfl
  · exact Or.inr rfl

theorem asLessEqual_turned (c : Constraint α) :
    c.asLessEqual = c ∨ c.asLessEqual = c.negated := by
  rw [Constraint.asLessEqual]
  split
  · exact Or.inl rfl
  · exact Or.inr rfl

/-- only equalities, and no right side below zero -/
def standardForm (p : Problem α) : Problem α :=
  p.equalities Constraint.withNonnegRhs Constraint.length_withNonnegRhs

/-- only equalities, and the slack columns are unit columns -/
def dualStandardForm (p : Problem α) : Problem α :=
  p.equalities Constraint.asLessEqual Constraint.length_asLessEqual

section
variable (orient : Constraint α → Constraint α)
  (hlen : ∀ c, (orient c).coefficients.length = c.coefficients.length) (p : Problem α)

@[simp] theorem constraintCount_equalities :
    (p.equalities orient hlen).constraintCount = p.constraintCount := by
  simp [equalities, constraintCount]

@[simp] theorem variableCount_equalities :
    (p.equalities orient hlen).variableCount = p.variableCount + p.inequalityCount := by
  simp [equalities, variableCount]

theorem relation_of_mem_equalities {d : Constraint α}
    (h : d ∈ (p.equalities orient hlen).constraints) : d.relation = .equal := by
  obtain ⟨_, _, _, hd, _⟩ := Constraint.exists_of_mem_withSlacks h
  exact hd

end

end Problem

end LinearProgram
