import Mathlib.Data.List.Basic
import LinearProgram.Problem.Dual

/-!
# Rows turned for the dual, and the dual of turned rows

Without equalities, all rows can be turned the way that the sense asks for, and then the matrix is
transposed.  The rows of what comes out are turned already, for the flipped sense, so that to
transpose once more is to go back.

* `Problem.Turned`                    every row has the relation that the sense asks for;
* `turned_turned`, `turned_transposed`   so it is after turning, and after transposing;
* `prepared_eq`, `dual_eq`            both forms of a problem without equalities;
* `exists_firstEquality`              with equalities, both fail at the first one;
* `Turned.transposed_transposed`      transposing twice.
-/

namespace LinearProgram

variable {α : Type} [Scalar α]

theorem Constraint.toward_turned (target : Relation) (c : Constraint α) :
    c.toward target = c ∨ c.toward target = c.negated := by
  rw [toward]
  split
  · exact Or.inl rfl
  · exact Or.inr rfl

theorem Constraint.toward_of_relation {target : Relation} {c : Constraint α}
    (h : c.relation = target) : c.toward target = c := if_pos h

namespace Problem

omit [Scalar α] in
/-- every row has the relation that the sense asks for -/
def Turned (q : Problem α) : Prop := ∀ c ∈ q.constraints, c.relation = q.sense.rowRelation

variable {p q : Problem α}

/-! ### turning -/

omit [Scalar α] in
theorem Turned.ne_equal (h : q.Turned) : ∀ c ∈ q.constraints, c.relation ≠ .equal := by
  intro c hc
  rw [h c hc]
  cases q.sense <;> decide

theorem turned_transposed (q : Problem α) : q.transposed.Turned := by
  intro d hd
  obtain ⟨j, hj, rfl⟩ := List.mem_mapIdx.1 hd
  rfl

/-- rows that are turned stay as they are -/
theorem Turned.turned_eq (h : q.Turned) : q.turned = q := by
  refine Problem.ext rfl rfl ?_
  exact List.map_congr_left (fun c hc => Constraint.toward_of_relation (h c hc)) |>.trans
    (List.map_id _)

theorem eq_turned_of_prepared (h : p.prepared = .ok q) : q = p.turned := by
  unfold prepared at h
  split at h
  · cases h
  · exact (Except.ok.inj h).symm

/-! ### problems without equalities -/

section
variable (hineq : ∀ c ∈ p.constraints, c.relation ≠ .equal)
include hineq

theorem turned_turned : p.turned.Turned := by
  intro d hd
  obtain ⟨c, hc, rfl⟩ := List.mem_map.1 hd
  exact Constraint.relation_toward (hineq c hc) p.sense

theorem prepared_eq : p.prepared = .ok p.turned := by
  have hnone : p.firstEquality? = none := by
    rw [firstEquality?, List.findIdx?_eq_none_iff]
    intro c hc
    exact beq_eq_false_iff_ne.2 (hineq c hc)
  rw [prepared, hnone]

theorem dual_eq : p.dual = .ok p.turned.transposed := by
  rw [dual, prepared_eq hineq]
  rfl

end

theorem Turned.prepared_eq (h : q.Turned) : q.prepared = .ok q := by
  rw [Problem.prepared_eq h.ne_equal, h.turned_eq]

theorem Turned.dual_eq (h : q.Turned) : q.dual = .ok q.transposed := by
  rw [Problem.dual_eq h.ne_equal, h.turned_eq]

/-! ### problems with equalities -/

omit [Scalar α] in
/-- the row is an equality, and no row above it is one -/
def FirstEquality (p : Problem α) (row : Nat) : Prop :=
  p.relations[row]? = some .equal ∧ ∀ i < row, p.relations[i]? ≠ some .equal

omit [Scalar α] in
theorem firstEquality_of_eq_some {row : Nat} (h : p.firstEquality? = some row) :
    p.FirstEquality row := by
  have hfind : p.relations.findIdx? (· == .equal) = some row := by
    rw [relations, List.findIdx?_map]
    exact h
  obtain ⟨hrow, hequal, hbefore⟩ := List.findIdx?_eq_some_iff_getElem.1 hfind
  refine ⟨?_, fun i hi => ?_⟩
  · rw [List.getElem?_eq_getElem hrow, beq_iff_eq.1 hequal]
  · rw [List.getElem?_eq_getElem (Nat.lt_trans hi hrow)]
    exact fun h => hbefore i hi (beq_iff_eq.2 (Option.some.inj h))

/-- both forms are refused at the first equality, if there is one -/
theorem exists_firstEquality (h : .equal ∈ p.relations) :
    ∃ row, p.FirstEquality row ∧ p.prepared = .error (.equalityInDual row) ∧
      p.dual = .error (.equalityInDual row) := by
  obtain ⟨c, hc, hequal⟩ := List.mem_map.1 h
  cases hfirst : p.firstEquality? with
  | none =>
    rw [firstEquality?, List.findIdx?_eq_none_iff] at hfirst
    exact absurd hequal (beq_eq_false_iff_ne.1 (hfirst c hc))
  | some row =>
    have hprepared : p.prepared = .error (.equalityInDual row) := by rw [prepared, hfirst]
    refine ⟨row, firstEquality_of_eq_some hfirst, hprepared, ?_⟩
    rw [dual, hprepared]
    rfl

theorem ne_equal_of_dual (h : p.dual = .ok q) : ∀ c ∈ p.constraints, c.relation ≠ .equal := by
  intro c hc hequal
  obtain ⟨row, -, -, hdual⟩ := exists_firstEquality (List.mem_map.2 ⟨c, hc, hequal⟩)
  exact absurd (hdual.symm.trans h) nofun

/-! ### transposing -/

theorem rhs_transposed (q : Problem α) : q.transposed.rhs = q.objective := by
  apply List.ext_getElem
  · rw [length_rhs, constraintCount_transposed, variableCount]
  · intro j _ _
    simp only [rhs, transposed, List.getElem_map, List.getElem_mapIdx]

/-- the entries of one row, each read from its column -/
theorem row_transposed (q : Problem α) {i : Nat} (hi : i < q.constraints.length) :
    q.transposed.constraints.map (·.coefficients.getD i 0) = q.constraints[i].coefficients := by
  have hwidth := q.width_eq _ (List.getElem_mem hi)
  apply List.ext_getElem
  · rw [List.length_map, hwidth]
    exact q.constraintCount_transposed
  · intro j _ hj
    simp [transposed, hi, hj]

theorem Turned.transposed_transposed (h : q.Turned) : q.transposed.transposed = q := by
  refine Problem.ext q.rhs_transposed (Sense.flipped_flipped _) (List.ext_getElem ?_ ?_)
  · show q.transposed.transposed.constraintCount = q.constraintCount
    rw [constraintCount_transposed, variableCount_transposed]
  · intro i _ hi
    have hrelation : q.constraints[i].relation = q.transposed.sense.flipped.rowRelation := by
      rw [h _ (List.getElem_mem hi)]
      exact congrArg Sense.rowRelation (Sense.flipped_flipped _).symm
    have hlt : i < q.transposed.objective.length := by simpa [transposed, rhs] using hi
    have hrhs : q.transposed.objective[i] = q.constraints[i].rhs := by simp [transposed, rhs]
    have hrow : q.transposed.transposed.constraints[i] =
        ⟨q.transposed.constraints.map (·.coefficients.getD i 0),
          q.transposed.sense.flipped.rowRelation, q.transposed.objective[i]⟩ := List.getElem_mapIdx
    rw [hrow, row_transposed q hi, ← hrelation, hrhs]

/-- the dual of the dual -/
theorem dual_of_dual_eq (h : p.dual = .ok q) : p.prepared = .ok p.turned ∧ q.dual = .ok p.turned := by
  have hineq := ne_equal_of_dual h
  obtain rfl := Except.ok.inj ((dual_eq hineq).symm.trans h)
  refine ⟨prepared_eq hineq, ?_⟩
  rw [p.turned.turned_transposed.dual_eq, (turned_turned hineq).transposed_transposed]

end Problem

end LinearProgram
