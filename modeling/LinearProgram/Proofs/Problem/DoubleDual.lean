import LinearProgram.Proofs.Double.Signs
import LinearProgram.Proofs.Problem.Turned

/-!
# The dual of the dual

Taking the dual twice gives back the rows as they were turned for the dual, bit for bit: every number
has been multiplied by `1` or by `-1` once, and is only moved after that.

* `Constraint.toward_eq_multiple`   to turn a row is to multiply it by `1` or `-1`;
* `Problem.dual_of_dual`.
-/

namespace LinearProgram

/-- what a row is multiplied by on its way to the relation -/
def Constraint.factor (target : Relation) (c : Constraint Float) : Float :=
  if c.relation = target then 1 else -1

theorem Constraint.toward_eq_multiple (target : Relation) (c : Constraint Float) :
    (c.toward target).coefficients = c.coefficients.map (c.factor target * ·) ∧
      (c.toward target).rhs = c.factor target * c.rhs := by
  by_cases h : c.relation = target
  · rw [toward_of_relation h, factor, if_pos h]
    simp [Double.one_mul]
  · rw [toward, if_neg h, factor, if_neg h]
    simp [negated, Double.neg_one_mul]

namespace Problem

/-- Without equalities the problem has its prepared form, whose rows are those of the problem times
`1` or `-1`, and its dual.  The dual of the dual is the prepared form, the dual of that is the dual
again, and to prepare it once more changes nothing.  With equalities, neither form exists, and the
first one is reported. -/
theorem dual_of_dual (p : Problem Float) :
    (.equal ∉ p.relations → ∃ q d, p.prepared = .ok q ∧ p.dual = .ok d ∧
      (q.objective = p.objective ∧ q.sense = p.sense ∧
        q.matrix = p.constraints.map (fun c =>
          c.coefficients.map (c.factor p.sense.rowRelation * ·)) ∧
        q.rhs = p.constraints.map (fun c => c.factor p.sense.rowRelation * c.rhs) ∧
        q.relations = List.replicate p.constraintCount p.sense.rowRelation) ∧
      d.dual = .ok q ∧ q.dual = .ok d ∧ q.prepared = .ok q) ∧
    (.equal ∈ p.relations → ∃ row,
      (p.relations[row]? = some .equal ∧ ∀ i < row, p.relations[i]? ≠ some .equal) ∧
      p.prepared = .error (.equalityInDual row) ∧ p.dual = .error (.equalityInDual row)) := by
  refine ⟨fun hnone => ?_, exists_firstEquality⟩
  have hineq : ∀ c ∈ p.constraints, c.relation ≠ .equal :=
    fun c hc hequal => hnone (List.mem_map.2 ⟨c, hc, hequal⟩)
  have hturned := turned_turned hineq
  refine ⟨p.turned, p.turned.transposed, prepared_eq hineq, dual_eq hineq,
    ⟨rfl, rfl, ?_, ?_, ?_⟩, ?_, hturned.dual_eq, hturned.prepared_eq⟩
  · rw [matrix, turned, List.map_map]
    exact List.map_congr_left fun c _ => (c.toward_eq_multiple _).1
  · rw [rhs, turned, List.map_map]
    exact List.map_congr_left fun c _ => (c.toward_eq_multiple _).2
  · refine List.eq_replicate_iff.2 ⟨?_, List.forall_mem_map.2 hturned⟩
    rw [length_relations]
    exact List.length_map _
  · exact (dual_of_dual_eq (dual_eq hineq)).2

/-- rows both ways, with zeros of both signs -/
def signedZeros : Problem Float :=
  ⟨[0.1, -0.0], .minimize, [⟨[0.0, 2.5], .lessEqual, 0⟩, ⟨[-0.0, -1], .greaterEqual, -0.3⟩],
    by decide⟩

/-- two equalities after an inequality, over no variables -/
def lateEqualities : Problem Float :=
  ⟨[], .maximize, [⟨[], .lessEqual, 1⟩, ⟨[], .equal, 0⟩, ⟨[], .equal, 2⟩], by decide⟩

/-- the dual of `signedZeros`, with the signs of its zeros -/
def signedZerosDual : Problem Float :=
  ⟨[-0.0, -0.3], .maximize, [⟨[-0.0, -0.0], .lessEqual, 0.1⟩, ⟨[-2.5, -1], .lessEqual, -0.0⟩],
    by decide⟩

theorem dual_of_dual_signedZeros :
    (.equal ∉ signedZeros.relations ∧ signedZeros.dual = .ok signedZerosDual ∧
      ∃ q, signedZerosDual.dual = .ok q ∧ q.dual = .ok signedZerosDual ∧
        q.rhs = [-0.0, -0.3] ∧ q.matrix = [[-0.0, -2.5], [-0.0, -1]]) ∧
    .equal ∈ lateEqualities.relations ∧ lateEqualities.FirstEquality 1 ∧
      lateEqualities.dual = .error (.equalityInDual 1) := by
  have hnone : .equal ∉ signedZeros.relations := by decide
  have hsome : .equal ∈ lateEqualities.relations := by decide
  obtain ⟨q, d, -, hd, ⟨-, -, hmatrix, hrhs, -⟩, hq, hback, -⟩ := (dual_of_dual signedZeros).1 hnone
  obtain ⟨row, hfirst, -, hdual⟩ := (dual_of_dual lateEqualities).2 hsome
  have hone : lateEqualities.dual = .error (.equalityInDual 1) := rfl
  obtain rfl : row = 1 := by
    rw [hone] at hdual
    cases hdual
    rfl
  have hclosed : signedZeros.dual = .ok signedZerosDual := by decide +kernel
  rw [hclosed] at hd
  cases hd
  refine ⟨⟨hnone, hclosed, q, hq, hback, ?_, ?_⟩, hsome, hfirst, hdual⟩
  · rw [hrhs]
    decide +kernel
  · rw [hmatrix]
    decide +kernel

end Problem

end LinearProgram
