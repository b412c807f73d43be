import LinearProgram.Problem

/-!
# The dual of a problem

A maximisation is dualised from rows that all read `<=`, a minimisation from rows that all read
`>=`; a row that points the other way is negated first.  Then the matrix is transposed, the
objective and the right side change places, and the sense is flipped.  An equality has no place
in either form.

* `Problem.prepared`   rows turned the way the sense asks for;
* `Problem.dual`       the dual problem.
-/

namespace LinearProgram

/-- the relation of the rows from which a problem of this sense is dualised -/
def Sense.rowRelation : Sense → Relation
  | .maximize => .lessEqual
  | .minimize => .greaterEqual

variable {α : Type} [Scalar α]

/-- the row, negated unless it has the wanted relation -/
def Constraint.toward (target : Relation) (c : Constraint α) : Constraint α :=
  if c.relation = target then c else c.negated

@[simp] theorem Constraint.length_toward (target : Relation) (c : Constraint α) :
    (c.toward target).coefficients.length = c.coefficients.length := by
  rw [toward]; split <;> simp

theorem Constraint.relation_toward {c : Constraint α} (h : c.relation ≠ .equal) (s : Sense) :
    (c.toward s.rowRelation).relation = s.rowRelation := by
  rw [toward]
  split
  next hrel => exact hrel
  next hrel =>
    rw [relation_negated]
    revert h hrel
    cases s <;> cases c.relation <;> decide

namespace Problem

/-- the index of the first equality -/
def firstEquality? (p : Problem α) : Option Nat :=
  p.constraints.findIdx? (·.relation == .equal)

/-- all rows turned the way the sense asks for, with no regard to equalities -/
def turned (p : Problem α) : Problem α where
  objective := p.objective
  sense := p.sense
  constraints := p.constraints.map (·.toward p.sense.rowRelation)
  width_eq d hd := by
    obtain ⟨c, hc, rfl⟩ := List.mem_map.1 hd
    rw [Constraint.length_toward, p.width_eq c hc]

/-- the dual of a problem whose rows are turned already -/
def transposed (p : Problem α) : Problem α where
  objective := p.rhs
  sense := p.sense.flipped
  constraints := p.objective.mapIdx fun j c =>
    ⟨p.constraints.map (·.coefficients.getD j 0), p.sense.flipped.rowRelation, c⟩
  width_eq c hc := by
    obtain ⟨j, hj, rfl⟩ := List.mem_mapIdx.1 hc
    simp [rhs]

def prepared (p : Problem α) : Except (Failure α) (Problem α) :=
  match p.firstEquality? with
  | some row => .error (.equalityInDual row)
  | none => .ok p.turned

def dual (p : Problem α) : Except (Failure α) (Problem α) := p.prepared.map transposed

@[simp] theorem variableCount_transposed (p : Problem α) :
    p.transposed.variableCount = p.constraintCount := by
  simp [transposed, variableCount, constraintCount, rhs]

@[simp] theorem constraintCount_transposed (p : Problem α) :
    p.transposed.constraintCount = p.variableCount := by
  simp [transposed, variableCount, constraintCount]

end Problem

end LinearProgram
