import LinearProgram.Method
import LinearProgram.Proofs.Tableau.UnitSearch

/-!
# Slack columns

The slack column of a row has zeros in all other rows, so it is a unit column wherever the slack is
`+1`.  A form of a problem can lack a starting basis only through a row without such a slack, and
which rows those are depends on how the form turns them.

* `columnOf_withSlacks`             the column of a slack;
* `Problem.columnOf_equalities`     the same in a form of a problem;
* `Method.LacksUnitSlack`           the rows to which a method gives no such slack;
* `startingBasis_transform_error`   how the search fails on the form of a method.
-/

namespace LinearProgram

open ExactUnits

variable {α : Type} [Scalar α]

namespace Constraint

/-! ### one slack column -/

section
variable {m extra : Nat} {cs : List (Constraint α)}

omit [Scalar α] in
theorem getElem?_append_slack {c : Constraint α} (hc : c.coefficients.length = m)
    (slacks : List α) (q : Nat) : (c.coefficients ++ slacks)[m + q]? = slacks[q]? := by
  rw [← hc, List.getElem?_append_right (Nat.le_add_right _ _), Nat.add_sub_cancel_left]

/-- a slack column that is not the one of the first row -/
theorem columnOf_withSlacks_cons (cs : List (Constraint α)) {c : Constraint α}
    (hc : c.coefficients.length = m) {used q : Nat} (hq : q < extra)
    (hne : c.slack.isSome → q ≠ used) :
    columnOf ((withSlacks extra used (c :: cs)).map (·.coefficients)) (m + q) = some 0 ::
      columnOf ((withSlacks extra (if c.slack.isSome then used + 1 else used) cs).map
        (·.coefficients)) (m + q) := by
  have hzero : (List.replicate extra (0 : α))[q]? = some 0 := by
    rw [List.getElem?_replicate, if_pos hq]
  rw [withSlacks]
  cases hs : c.slack with
  | none => exact congrArg (· :: _) ((getElem?_append_slack hc _ q).trans hzero)
  | some s =>
    have hset : ((List.replicate extra 0).set used s)[q]? = some 0 := by
      rw [List.getElem?_set_ne (hne (by rw [hs]; rfl)).symm, hzero]
    exact congrArg (· :: _) ((getElem?_append_slack hc _ q).trans hset)

/-- the rows have zeros in the slack columns that are taken already -/
theorem columnOf_withSlacks_of_taken (hlen : ∀ c ∈ cs, c.coefficients.length = m) {used q : Nat}
    (hused : q < used) (hq : q < extra) :
    columnOf ((withSlacks extra used cs).map (·.coefficients)) (m + q) =
      List.replicate cs.length (some 0) := by
  induction cs generalizing used with
  | nil => rfl
  | cons c rest ih =>
    obtain ⟨hc, hrest⟩ := List.forall_mem_cons.1 hlen
    have hused' : q < if c.slack.isSome then used + 1 else used := by split <;> omega
    rw [columnOf_withSlacks_cons rest hc hq fun _ => Nat.ne_of_lt hused, ih hrest hused']
    rfl

/-- the column of the slack of the first row, which is taken for all rows below -/
theorem columnOf_withSlacks_head {c : Constraint α}
    (hlen : ∀ d ∈ c :: cs, d.coefficients.length = m) {used : Nat} {s : α}
    (hslack : c.slack = some s) (hextra : used < extra) :
    columnOf ((withSlacks extra used (c :: cs)).map (·.coefficients)) (m + used) =
      some s :: List.replicate cs.length (some 0) := by
  obtain ⟨hc, hrest⟩ := List.forall_mem_cons.1 hlen
  have hentry : (c.coefficients ++ (List.replicate extra 0).set used s)[m + used]? = some s := by
    rw [getElem?_append_slack hc, List.getElem?_set_self (by rwa [List.length_replicate])]
  rw [← columnOf_withSlacks_of_taken hrest (Nat.lt_succ_self used) hextra, withSlacks, hslack]
  exact congrArg (· :: _) hentry

/-- The slack of a row stands after those of the inequalities above it, in a column of zeros. -/
theorem columnOf_withSlacks (hlen : ∀ c ∈ cs, c.coefficients.length = m) {used i : Nat} {s : α}
    (hi : i < cs.length) (hslack : cs[i].slack = some s)
    (hextra : used + (cs.take i).countP (·.slack.isSome) < extra) :
    columnOf ((withSlacks extra used cs).map (·.coefficients))
      (m + (used + (cs.take i).countP (·.slack.isSome))) =
        (List.replicate cs.length (some 0)).set i (some s) := by
  induction cs generalizing used i with
  | nil => exact absurd hi (Nat.not_lt_zero i)
  | cons c rest ih =>
    cases i with
    | zero => exact columnOf_withSlacks_head hlen hslack hextra
    | succ i =>
      obtain ⟨hc, hrest⟩ := List.forall_mem_cons.1 hlen
      rw [List.take_succ_cons, List.countP_cons] at hextra ⊢
      have hne : c.slack.isSome → used + (List.countP (·.slack.isSome) (rest.take i) +
          if c.slack.isSome then 1 else 0) ≠ used := by
        intro h
        rw [if_pos h]
        omega
      have hplace : used + (List.countP (·.slack.isSome) (rest.take i) +
          if c.slack.isSome then 1 else 0) =
          (if c.slack.isSome then used + 1 else used) +
            List.countP (·.slack.isSome) (rest.take i) := by
        split <;> omega
      rw [columnOf_withSlacks_cons rest hc hextra hne]
      rw [hplace] at hextra ⊢
      rw [ih hrest (Nat.lt_of_succ_lt_succ hi) hslack hextra]
      rfl

theorem isUnit_set_replicate [ExactUnits α] {n i : Nat} (hi : i < n) :
    IsUnit ((List.replicate n (some (0 : α))).set i (some 1)) i := by
  refine ⟨⟨1, ?_, one_beq_one⟩, fun k hk hne => ⟨0, ?_, zero_beq_zero⟩⟩
  · rw [List.getElem?_set_self (by rwa [List.length_replicate])]
  · rw [List.length_set, List.length_replicate] at hk
    rw [List.getElem?_set_ne hne.symm, List.getElem?_replicate, if_pos hk]

end

/-- an inequality has a slack of one or of minus one -/
theorem exists_slack {c : Constraint α} (h : c.isInequality) :
    ∃ s, c.slack = some s ∧ (s = 1 ∨ s = -1) := by
  obtain ⟨s, hs⟩ := Option.isSome_iff_exists.1 (isInequality_iff_slack.1 h)
  refine ⟨s, hs, ?_⟩
  rw [slack] at hs
  split at hs
  · exact Or.inl (Option.some.inj hs).symm
  · exact Or.inr (Option.some.inj hs).symm
  · cases hs

end Constraint

/-! ### the form of a problem -/

namespace Problem

/-- the number of inequalities above a row -/
def inequalitiesAbove (p : Problem α) (i : Nat) : Nat :=
  (p.constraints.take i).countP (·.isInequality)

section
variable {orient : Constraint α → Constraint α} {p : Problem α}
  (hlen : ∀ c, (orient c).coefficients.length = c.coefficients.length)

omit [Scalar α] in
theorem inequalitiesAbove_lt {i : Nat} (hi : i < p.constraintCount)
    (h : p.constraints[i].isInequality) : p.inequalitiesAbove i < p.inequalityCount := by
  have hsplit : p.inequalityCount =
      p.inequalitiesAbove i + (p.constraints.drop i).countP (·.isInequality) := by
    rw [inequalityCount, inequalitiesAbove, ← List.countP_append, List.take_append_drop]
  -- the row itself is one of the inequalities that are not above it
  rw [List.drop_eq_getElem_cons hi, List.countP_cons_of_pos h] at hsplit
  omega

variable (horient : ∀ c, orient c = c ∨ orient c = c.negated)
include horient

theorem countP_slack_map (cs : List (Constraint α)) :
    (cs.map orient).countP (·.slack.isSome) = cs.countP (·.isInequality) := by
  rw [List.countP_map]
  apply List.countP_congr
  intro c _
  rw [Function.comp_apply, ← Constraint.isInequality_iff_slack,
    Constraint.isInequality_turned (horient c)]

/-- the column of the slack of a row -/
theorem columnOf_equalities {i : Nat} (hi : i < p.constraintCount) {s : α}
    (hslack : (orient p.constraints[i]).slack = some s) :
    columnOf (p.equalities orient hlen).matrix (p.variableCount + p.inequalitiesAbove i) =
      (List.replicate p.constraintCount (some 0)).set i (some s) := by
  have hi' : i < (p.constraints.map orient).length := by rwa [List.length_map]
  have hwidth : ∀ c ∈ p.constraints.map orient, c.coefficients.length = p.variableCount := by
    intro d hd
    obtain ⟨c, hc, rfl⟩ := List.mem_map.1 hd
    rw [hlen, p.width_eq c hc, variableCount]
  have hget : (p.constraints.map orient)[i].slack = some s := by rwa [List.getElem_map]
  have habove : 0 + ((p.constraints.map orient).take i).countP (·.slack.isSome) =
      p.inequalitiesAbove i := by
    rw [Nat.zero_add, ← List.map_take, countP_slack_map horient, inequalitiesAbove]
  have hineq : p.constraints[i].isInequality := by
    rw [← Constraint.isInequality_turned (horient _), Constraint.isInequality_iff_slack, hslack]
    rfl
  have hextra := inequalitiesAbove_lt hi hineq
  rw [← habove] at hextra ⊢
  rw [matrix, equalities, Constraint.columnOf_withSlacks hwidth hi' hget hextra, List.length_map,
    constraintCount]

theorem ownsUnit_equalities [ExactUnits α] {i : Nat} (hi : i < p.constraintCount)
    (hslack : (orient p.constraints[i]).slack = some 1) :
    (p.equalities orient hlen).OwnsUnit i := by
  have hineq : p.constraints[i].isInequality := by
    rw [← Constraint.isInequality_turned (horient _), Constraint.isInequality_iff_slack, hslack]
    rfl
  refine ⟨p.variableCount + p.inequalitiesAbove i, ?_, ?_⟩
  · rw [variableCount_equalities]
    exact Nat.add_lt_add_left (inequalitiesAbove_lt hi hineq) _
  · rw [columnOf_equalities hlen horient hi hslack]
    exact Constraint.isUnit_set_replicate hi

end

end Problem

/-! ### the form that a method works on -/

/-- the row gets no slack of `+1` in the form that the method works on -/
def Method.LacksUnitSlack (m : Method) (c : Constraint α) : Prop :=
  match c.relation with
  | .equal => True
  | .greaterEqual => m = .primal ∧ 0 ≤ c.rhs
  | .lessEqual => m = .primal ∧ ¬ 0 ≤ c.rhs

namespace Constraint

theorem slack_of_lessEqual {c : Constraint α} (h : c.relation = .lessEqual) :
    c.slack = some 1 := by
  rw [slack, h]

theorem slack_withNonnegRhs {c : Constraint α} (h : ¬ Method.primal.LacksUnitSlack c) :
    c.withNonnegRhs.slack = some 1 := by
  apply slack_of_lessEqual
  rw [Method.LacksUnitSlack] at h
  rw [withNonnegRhs]
  cases hrel : c.relation with
  | lessEqual =>
    rw [hrel] at h
    rw [if_pos (Decidable.not_not.1 fun hrhs => h ⟨rfl, hrhs⟩), hrel]
  | greaterEqual =>
    rw [hrel] at h
    rw [if_neg fun hrhs => h ⟨rfl, hrhs⟩, relation_negated, hrel]
    rfl
  | equal =>
    rw [hrel] at h
    exact absurd trivial h

theorem slack_asLessEqual {c : Constraint α} (h : ¬ Method.dual.LacksUnitSlack c) :
    c.asLessEqual.slack = some 1 := by
  apply slack_of_lessEqual
  rw [Method.LacksUnitSlack] at h
  rw [asLessEqual]
  cases hrel : c.relation with
  | lessEqual => rw [if_pos rfl, hrel]
  | greaterEqual =>
    rw [if_neg (by decide), relation_negated, hrel]
    rfl
  | equal =>
    rw [hrel] at h
    exact absurd trivial h

end Constraint

namespace Method

variable {m : Method} {p : Problem α}

variable [ExactUnits α]

theorem ownsUnit_transform {i : Nat} (hi : i < p.constraintCount)
    (h : ¬ m.LacksUnitSlack p.constraints[i]) : (m.transform p).OwnsUnit i := by
  cases m with
  | primal =>
    exact Problem.ownsUnit_equalities Constraint.length_withNonnegRhs
      Problem.withNonnegRhs_turned hi (Constraint.slack_withNonnegRhs h)
  | dual =>
    exact Problem.ownsUnit_equalities Constraint.length_asLessEqual
      Problem.asLessEqual_turned hi (Constraint.slack_asLessEqual h)

/-- The form of a problem lacks a starting basis only through a row without a slack of `+1`; the
failure counts the rows that own a unit column, and those of the problem. -/
theorem startingBasis_transform_error {e : Failure α}
    (h : (m.transform p).startingBasis = .error e) :
    e = .noInitialBasis (m.transform p).unitRowCount p.constraintCount ∧
      ∃ c ∈ p.constraints, m.LacksUnitSlack c := by
  obtain ⟨he, row, hrow, hnot⟩ := Problem.startingBasis_eq_error_iff.1 h
  rw [constraintCount_transform] at he hrow
  refine ⟨he, p.constraints[row], List.getElem_mem hrow, ?_⟩
  by_contra hlacks
  exact hnot (ownsUnit_transform hrow hlacks)

end Method

end LinearProgram
