import LinearProgram.Problem

/-!
# Feasible points and optima

What a problem over the rationals means: a point has one non-negative entry per variable, it is
feasible when every constraint holds at it under its own relation, and it is an optimum when no
feasible point has an objective that the sense likes better.  A problem is unbounded when its
feasible points have objectives as good as one likes.
-/

namespace LinearProgram

/-- the sum of the products, place by place -/
def dot : List Rat → List Rat → Rat
  | a :: as, x :: xs => a * x + dot as xs
  | _, _ => 0

@[simp] theorem dot_nil_left (x : List Rat) : dot [] x = 0 := by cases x <;> rfl

@[simp] theorem dot_nil_right (a : List Rat) : dot a [] = 0 := by cases a <;> rfl

@[simp] theorem dot_cons (a x : Rat) (as xs : List Rat) :
    dot (a :: as) (x :: xs) = a * x + dot as xs := rfl

def Relation.Holds (r : Relation) (a b : Rat) : Prop :=
  match r with
  | lessEqual => a ≤ b
  | greaterEqual => b ≤ a
  | equal => a = b

instance (r : Relation) (a b : Rat) : Decidable (r.Holds a b) :=
  match r with
  | .lessEqual => inferInstanceAs (Decidable (a ≤ b))
  | .greaterEqual => inferInstanceAs (Decidable (b ≤ a))
  | .equal => inferInstanceAs (Decidable (a = b))

/-- the first value is at least as good as the second -/
def Sense.Prefers (s : Sense) (a b : Rat) : Prop :=
  match s with
  | maximize => b ≤ a
  | minimize => a ≤ b

instance (s : Sense) (a b : Rat) : Decidable (s.Prefers a b) :=
  match s with
  | .maximize => inferInstanceAs (Decidable (b ≤ a))
  | .minimize => inferInstanceAs (Decidable (a ≤ b))

/-- the first value is better than the second -/
def Sense.Beats (s : Sense) (a b : Rat) : Prop :=
  match s with
  | maximize => b < a
  | minimize => a < b

/-- the condition of a row at a point -/
def Constraint.Holds (c : Constraint Rat) (x : List Rat) : Prop :=
  c.relation.Holds (dot c.coefficients x) c.rhs

instance (c : Constraint Rat) (x : List Rat) : Decidable (c.Holds x) :=
  inferInstanceAs (Decidable (c.relation.Holds _ _))

namespace Problem

/-- the objective at a point -/
def objectiveAt (p : Problem Rat) (x : List Rat) : Rat := dot p.objective x

/-- a point at which all rows hold, whatever its signs -/
structure Satisfies (p : Problem Rat) (x : List Rat) : Prop where
  length_eq : x.length = p.variableCount
  holds : ∀ c ∈ p.constraints, c.Holds x

structure Feasible (p : Problem Rat) (x : List Rat) : Prop extends p.Satisfies x where
  nonneg : ∀ v ∈ x, 0 ≤ v

/-- a feasible point that no other one beats -/
structure Optimum (p : Problem Rat) (x : List Rat) : Prop extends p.Feasible x where
  best : ∀ y, p.Feasible y → p.sense.Prefers (p.objectiveAt x) (p.objectiveAt y)

/-- some feasible point beats any given value -/
def Unbounded (p : Problem Rat) : Prop :=
  ∀ bound, ∃ x, p.Feasible x ∧ p.sense.Beats (p.objectiveAt x) bound

end Problem

end LinearProgram
