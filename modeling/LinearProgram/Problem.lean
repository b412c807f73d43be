import LinearProgram.Failure
import LinearProgram.Relation
import LinearProgram.Scalar
import LinearProgram.Sense

/-!
# Linear programs

A problem drives an objective `c · x` in its sense over the `x ≥ 0` that satisfy every
constraint `a · x REL b`.  The type holds one row per constraint, and every row has one
coefficient per variable, so a problem is rectangular by construction.

* `Problem.ofParts`            a problem from its parts, refused when lengths disagree;
* `Problem.parts_of_ofParts`   an accepted problem has the parts it was made from;
* `Problem.ofParts_parts`      the parts of a problem make it again.
-/

namespace LinearProgram

structure Constraint (α : Type) where
  coefficients : List α
  relation : Relation
  rhs : α
  deriving DecidableEq

namespace Constraint

variable {α : Type}

/-- the same condition with both sides multiplied by `-1` -/
def negated [Neg α] (c : Constraint α) : Constraint α :=
  ⟨c.coefficients.map (-·), c.relation.flipped, -c.rhs⟩

@[simp] theorem length_negated [Neg α] (c : Constraint α) :
    c.negated.coefficients.length = c.coefficients.length := by simp [negated]

@[simp] theorem relation_negated [Neg α] (c : Constraint α) :
    c.negated.relation = c.relation.flipped := rfl

/-- rows put together from a matrix, its relations and its right sides -/
def zip : List (List α) → List Relation → List α → List (Constraint α)
  | row :: rows, r :: rs, b :: bs => ⟨row, r, b⟩ :: zip rows rs bs
  | _, _, _ => []

theorem mem_zip {rows : List (List α)} {rs : List Relation} {bs : List α} {c : Constraint α}
    (h : c ∈ zip rows rs bs) : c.coefficients ∈ rows := by
  induction rows, rs, bs using zip.induct with
  | case1 row rows r rs b bs ih =>
    rcases List.mem_cons.1 h with rfl | h
    · exact List.mem_cons_self
    · exact List.mem_cons_of_mem _ (ih h)
  | case2 rows rs bs hne =>
    rw [zip] at h
    · exact absurd h List.not_mem_nil
    · exact hne

theorem map_zip {rows : List (List α)} {rs : List Relation} {bs : List α}
    (hrows : rows.length = bs.length) (hrs : rs.length = bs.length) :
    (zip rows rs bs).map (·.coefficients) = rows ∧ (zip rows rs bs).map (·.relation) = rs ∧
      (zip rows rs bs).map (·.rhs) = bs := by
  induction rows, rs, bs using zip.induct with
  | case1 row rows r rs b bs ih =>
    obtain ⟨h1, h2, h3⟩ := ih (by simpa using hrows) (by simpa using hrs)
    simp [zip, h1, h2, h3]
  | case2 rows rs bs hne =>
    cases bs with
    | nil =>
      rw [List.eq_nil_of_length_eq_zero hrows, List.eq_nil_of_length_eq_zero hrs]
      simp [zip]
    | cons b bs =>
      obtain ⟨row, rows, rfl⟩ := List.exists_cons_of_length_eq_add_one hrows
      obtain ⟨r, rs, rfl⟩ := List.exists_cons_of_length_eq_add_one hrs
      exact absurd rfl (hne _ _ _ _ _ _ rfl rfl)

end Constraint

structure Problem (α : Type) where
  objective : List α
  sense : Sense
  constraints : List (Constraint α)
  width_eq : ∀ c ∈ constraints, c.coefficients.length = objective.length
  deriving DecidableEq

namespace Problem

variable {α : Type}

@[ext] theorem ext {p q : Problem α} (ho : p.objective = q.objective) (hs : p.sense = q.sense)
    (hc : p.constraints = q.constraints) : p = q := by
  cases p; cases q; subst ho hs hc; rfl

def variableCount (p : Problem α) : Nat := p.objective.length

def constraintCount (p : Problem α) : Nat := p.constraints.length

/-! ### columns of a problem -/

def matrix (p : Problem α) : List (List α) := p.constraints.map (·.coefficients)

def relations (p : Problem α) : List Relation := p.constraints.map (·.relation)

def rhs (p : Problem α) : List α := p.constraints.map (·.rhs)

@[simp] theorem length_matrix (p : Problem α) : p.matrix.length = p.constraintCount := by
  simp [matrix, constraintCount]

@[simp] theorem length_relations (p : Problem α) : p.relations.length = p.constraintCount := by
  simp [relations, constraintCount]

@[simp] theorem length_rhs (p : Problem α) : p.rhs.length = p.constraintCount := by
  simp [rhs, constraintCount]

theorem length_of_mem_matrix (p : Problem α) {row : List α} (h : row ∈ p.matrix) :
    row.length = p.variableCount := by
  obtain ⟨c, hc, rfl⟩ := List.mem_map.1 h
  exact p.width_eq c hc

/-! ### from separate columns -/

end Problem

/-- the parts of a problem, of any lengths -/
structure Parts (α : Type) where
  objective : List α
  sense : Sense
  matrix : List (List α)
  rhs : List α
  relations : List Relation
  deriving DecidableEq

namespace Problem

variable {α : Type}

def parts (p : Problem α) : Parts α := ⟨p.objective, p.sense, p.matrix, p.rhs, p.relations⟩

/-- A problem from its parts.  The first disagreement is reported: the rows of the matrix against
the right sides, then the relations against them, then each row against the objective. -/
def ofParts (objective : List α) (sense : Sense) (matrix : List (List α)) (rhs : List α)
    (relations : List Relation) : Except (Failure α) (Problem α) :=
  if matrix.length ≠ rhs.length then
    .error (.dimensionMismatch .constraintRows rhs.length matrix.length)
  else if relations.length ≠ rhs.length then
    .error (.dimensionMismatch .relations rhs.length relations.length)
  else
    match h : matrix.find? (·.length != objective.length) with
    | some row => .error (.dimensionMismatch .constraintColumns objective.length row.length)
    | none =>
      .ok ⟨objective, sense, Constraint.zip matrix relations rhs, fun _ hc => by
        simpa using List.find?_eq_none.1 h _ (Constraint.mem_zip hc)⟩

theorem ofParts_parts (p : Problem α) :
    ofParts p.objective p.sense p.matrix p.rhs p.relations = .ok p := by
  have hfind : p.matrix.find? (·.length != p.objective.length) = none := by
    rw [List.find?_eq_none]
    intro row hrow
    simp [p.length_of_mem_matrix hrow, variableCount]
  have hzip : ∀ cs : List (Constraint α), Constraint.zip (cs.map (·.coefficients))
      (cs.map (·.relation)) (cs.map (·.rhs)) = cs := by
    intro cs
    induction cs with
    | nil => rfl
    | cons c cs ih => simp only [List.map_cons, Constraint.zip, ih]
  unfold ofParts
  rw [if_neg (by simp), if_neg (by simp)]
  split
  · next h => rw [hfind] at h; exact absurd h (by simp)
  · congr 1
    exact Problem.ext rfl rfl (hzip p.constraints)

theorem parts_of_ofParts {objective : List α} {sense : Sense} {matrix : List (List α)}
    {rhs : List α} {relations : List Relation} {p : Problem α}
    (h : ofParts objective sense matrix rhs relations = .ok p) :
    p.objective = objective ∧ p.sense = sense ∧ p.matrix = matrix ∧ p.rhs = rhs ∧
      p.relations = relations := by
  unfold ofParts at h
  split at h
  · exact absurd h nofun
  next h1 =>
  split at h
  · exact absurd h nofun
  next h2 =>
  split at h
  · exact absurd h nofun
  · obtain ⟨e1, e2, e3⟩ := Constraint.map_zip (Decidable.not_not.1 h1) (Decidable.not_not.1 h2)
    cases h
    exact ⟨rfl, rfl, e1, e3, e2⟩

/-! ### comparison by value -/

/-- equality of all parts with numbers compared as numbers: the two zeros are one, a NaN is
nothing's equal -/
def same [BEq α] (p q : Problem α) : Bool :=
  p.objective == q.objective && p.sense == q.sense && p.matrix == q.matrix && p.rhs == q.rhs
    && p.relations == q.relations

end Problem

end LinearProgram
