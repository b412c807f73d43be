import LinearProgram.Proofs.Problem.Dot
import LinearProgram.Proofs.Problem.NormalForm

/-!
# Slack values

The equalities of a standard form determine the slack variables: the slack of an inequality is its
distance to the bound, whichever way the row has been turned.  So the feasible points of a
standard form are those of the problem with their slack values appended.

* `satisfies_equalities_iff`, `feasible_equalities_iff`   points of a standard form;
* `objectiveAt_equalities`   slacks cost nothing;
* `optimum_take_iff`         a feasible point of a standard form is an optimum when its leading
                             values are one of the problem.
-/

namespace LinearProgram

namespace Constraint

/-- how far a point is inside of the bound, for an inequality -/
def slackValue? (c : Constraint Rat) (x : List Rat) : Option Rat :=
  match c.relation with
  | .lessEqual => some (c.rhs - dot c.coefficients x)
  | .greaterEqual => some (dot c.coefficients x - c.rhs)
  | .equal => none

variable {c : Constraint Rat} {x : List Rat}

theorem slackValue?_eq (c : Constraint Rat) (x : List Rat) :
    c.slackValue? x = c.slack.map (· * (c.rhs - dot c.coefficients x)) := by
  rw [slackValue?, slack]
  cases c.relation with
  | lessEqual => rw [Option.map_some, one_mul]
  | greaterEqual =>
    rw [Option.map_some, neg_mul, one_mul, neg_sub]
  | equal => rfl

theorem slackValue?_of_slack {s : Rat} (h : c.slack = some s) (x : List Rat) :
    c.slackValue? x = some (s * (c.rhs - dot c.coefficients x)) := by
  rw [slackValue?_eq, h]
  rfl

theorem mul_self_of_slack {s : Rat} (h : c.slack = some s) : s * s = 1 := by
  rw [slack] at h
  cases hrel : c.relation with
  | lessEqual =>
    rw [hrel] at h
    rw [← Option.some.inj h, one_mul]
  | greaterEqual =>
    rw [hrel] at h
    rw [← Option.some.inj h, neg_mul_neg, one_mul]
  | equal =>
    rw [hrel] at h
    cases h

theorem relation_eq_of_slack_none (h : c.slack = none) : c.relation = .equal := by
  rw [slack] at h
  cases hrel : c.relation with
  | lessEqual => rw [hrel] at h; cases h
  | greaterEqual => rw [hrel] at h; cases h
  | equal => rfl

theorem holds_iff_slackValue? {v : Rat} (h : c.slackValue? x = some v) : c.Holds x ↔ 0 ≤ v := by
  rw [slackValue?] at h
  rw [Holds]
  cases hrel : c.relation with
  | lessEqual =>
    rw [hrel] at h
    rw [← Option.some.inj h, sub_nonneg]
    exact Iff.rfl
  | greaterEqual =>
    rw [hrel] at h
    rw [← Option.some.inj h, sub_nonneg]
    exact Iff.rfl
  | equal =>
    rw [hrel] at h
    cases h

/-! ### turned rows -/

theorem slackValue?_negated (c : Constraint Rat) (x : List Rat) :
    c.negated.slackValue? x = c.slackValue? x := by
  have hdot : dot c.negated.coefficients x = -dot c.coefficients x := dot_map_neg _ _
  have hrhs : c.negated.rhs = -c.rhs := rfl
  rw [slackValue?, slackValue?, relation_negated, hdot, hrhs]
  cases c.relation with
  | lessEqual => exact congrArg some (neg_sub_neg _ _)
  | greaterEqual => exact congrArg some (neg_sub_neg _ _)
  | equal => rfl

theorem holds_negated (c : Constraint Rat) (x : List Rat) : c.negated.Holds x ↔ c.Holds x := by
  have hdot : dot c.negated.coefficients x = -dot c.coefficients x := dot_map_neg _ _
  have hrhs : c.negated.rhs = -c.rhs := rfl
  rw [Holds, Holds, relation_negated, hdot, hrhs]
  cases c.relation with
  | lessEqual => exact neg_le_neg_iff
  | greaterEqual => exact neg_le_neg_iff
  | equal => exact neg_inj

theorem relation_negated_eq (c : Constraint Rat) :
    c.negated.relation = .equal ↔ c.relation = .equal := by
  rw [relation_negated]
  cases c.relation <;> decide

theorem isInequality_iff (c : Constraint Rat) : c.isInequality ↔ ¬ c.relation = .equal := by
  rw [isInequality, bne_iff_ne]

/-- a row, kept or negated, means the same -/
theorem turned {d : Constraint Rat} (h : d = c ∨ d = c.negated) (x : List Rat) :
    d.slackValue? x = c.slackValue? x ∧ (d.Holds x ↔ c.Holds x) ∧
      (d.relation = .equal ↔ c.relation = .equal) := by
  rcases h with rfl | rfl
  · exact ⟨rfl, Iff.rfl, Iff.rfl⟩
  · exact ⟨c.slackValue?_negated x, c.holds_negated x, c.relation_negated_eq⟩

/-! ### rows with slacks -/

theorem holds_no_slack_iff {extra : Nat} {v : List Rat} (hx : c.coefficients.length = x.length)
    (hs : c.slack = none) :
    (⟨c.coefficients ++ List.replicate extra 0, .equal, c.rhs⟩ : Constraint Rat).Holds (x ++ v) ↔
      c.Holds x := by
  show dot (c.coefficients ++ List.replicate extra 0) (x ++ v) = c.rhs ↔ _
  rw [dot_append hx, dot_replicate_zero, add_zero, Holds, relation_eq_of_slack_none hs]
  exact Iff.rfl

theorem holds_slack_iff {extra used : Nat} {s : Rat} {v : List Rat}
    (hx : c.coefficients.length = x.length) (hs : s * s = 1) (hused : used < extra) :
    (⟨c.coefficients ++ (List.replicate extra 0).set used s, .equal, c.rhs⟩ :
      Constraint Rat).Holds (x ++ v) ↔ v.getD used 0 = s * (c.rhs - dot c.coefficients x) := by
  show dot (c.coefficients ++ (List.replicate extra 0).set used s) (x ++ v) = c.rhs ↔ _
  rw [dot_append hx, dot_set_replicate hused]
  refine ⟨?_, ?_⟩
  · intro h
    rw [← h, add_sub_cancel_left, ← mul_assoc, hs, one_mul]
  · intro h
    rw [h, ← mul_assoc, hs, one_mul, add_sub_cancel]

/-- the rows with slacks hold just at the slack values, and where the equalities held -/
theorem holds_withSlacks_iff {cs : List (Constraint Rat)} {extra : Nat} {u w : List Rat}
    (hx : ∀ c ∈ cs, c.coefficients.length = x.length) (hw : w.length = cs.countP (·.isInequality))
    (hextra : extra = u.length + w.length) :
    (∀ d ∈ withSlacks extra u.length cs, d.Holds (x ++ (u ++ w))) ↔
      w = cs.filterMap (·.slackValue? x) ∧ ∀ c ∈ cs, c.relation = .equal → c.Holds x := by
  induction cs generalizing u w with
  | nil =>
    rw [List.eq_nil_of_length_eq_zero hw]
    exact ⟨fun _ => ⟨rfl, fun _ hc => absurd hc List.not_mem_nil⟩,
      fun _ _ hd => absurd hd List.not_mem_nil⟩
  | cons c rest ih =>
    have hxc := hx c List.mem_cons_self
    have hrest := fun d hd => hx d (List.mem_cons_of_mem c hd)
    cases hs : c.slack with
    | none =>
      have hrel := relation_eq_of_slack_none hs
      have hineq : ¬ c.isInequality := by
        rw [isInequality_iff_slack, hs]
        exact Bool.false_ne_true
      have hvalue : c.slackValue? x = none := by
        rw [slackValue?_eq, hs]
        rfl
      have hvalues : (c :: rest).filterMap (·.slackValue? x) = rest.filterMap (·.slackValue? x) :=
        List.filterMap_cons_none hvalue
      rw [List.countP_cons_of_neg hineq] at hw
      simp only [withSlacks, hs]
      rw [List.forall_mem_cons, holds_no_slack_iff hxc hs, ih hrest hw hextra, hvalues,
        List.forall_mem_cons]
      exact ⟨fun h => ⟨h.2.1, fun _ => h.1, h.2.2⟩, fun h => ⟨h.2.1 hrel, h.1, h.2.2⟩⟩
    | some s =>
      have hineq : c.isInequality := by
        rw [isInequality_iff_slack, hs]
        rfl
      have hrel := c.isInequality_iff.1 hineq
      have hvalues : (c :: rest).filterMap (·.slackValue? x) =
          s * (c.rhs - dot c.coefficients x) :: rest.filterMap (·.slackValue? x) :=
        List.filterMap_cons_some (slackValue?_of_slack hs x)
      rw [List.countP_cons_of_pos hineq] at hw
      obtain ⟨v, w, rfl⟩ := List.exists_cons_of_length_eq_add_one hw
      rw [List.length_cons] at hw hextra
      have hplace : (u ++ v :: w).getD u.length 0 = v := by
        rw [List.getD_append_right _ _ _ _ le_rfl, Nat.sub_self, List.getD_cons_zero]
      have hbelow := ih (u := u ++ [v]) (w := w) hrest (Nat.succ.inj hw)
        (by rw [List.length_append, List.length_singleton]; omega)
      rw [List.length_append, List.length_singleton, List.append_assoc, List.singleton_append]
        at hbelow
      simp only [withSlacks, hs]
      rw [List.forall_mem_cons, holds_slack_iff hxc (mul_self_of_slack hs) (by omega), hplace,
        hbelow, hvalues, List.cons.injEq, List.forall_mem_cons]
      exact ⟨fun h => ⟨⟨h.1, h.2.1⟩, fun he => absurd he hrel, h.2.2⟩,
        fun h => ⟨h.1.1, h.1.2, h.2.2⟩⟩

end Constraint

namespace Problem

/-- the slacks of the inequalities at a point, in the order of the rows -/
def slackValues (p : Problem Rat) (x : List Rat) : List Rat :=
  p.constraints.filterMap (·.slackValue? x)

def withSlackValues (p : Problem Rat) (x : List Rat) : List Rat := x ++ p.slackValues x

theorem length_slackValues (p : Problem Rat) (x : List Rat) :
    (p.slackValues x).length = p.inequalityCount := by
  rw [slackValues, inequalityCount, List.length_filterMap_eq_countP]
  apply List.countP_congr
  intro c _
  rw [Constraint.isInequality_iff_slack, Constraint.slackValue?_eq, Option.isSome_map]

/-! ### points of a standard form -/

section
variable {p : Problem Rat} {orient : Constraint Rat → Constraint Rat}
  {hlen : ∀ c, (orient c).coefficients.length = c.coefficients.length} {x w : List Rat}

/-- the rows of a standard form at a point with one value for each slack -/
theorem holds_equalities_iff (horient : ∀ c, orient c = c ∨ orient c = c.negated)
    (hx : x.length = p.variableCount) (hw : w.length = p.inequalityCount) :
    (∀ d ∈ (p.equalities orient hlen).constraints, d.Holds (x ++ w)) ↔
      w = p.slackValues x ∧ ∀ c ∈ p.constraints, c.relation = .equal → c.Holds x := by
  have hturned := fun c => Constraint.turned (horient c) x
  have hcount : (p.constraints.map orient).countP (·.isInequality) = p.inequalityCount := by
    rw [List.countP_map]
    apply List.countP_congr
    intro c _
    rw [Function.comp_apply, Constraint.isInequality_iff, Constraint.isInequality_iff,
      (hturned c).2.2]
  have hvalues : (p.constraints.map orient).filterMap (·.slackValue? x) = p.slackValues x := by
    rw [List.filterMap_map]
    exact List.filterMap_congr fun c _ => (hturned c).1
  have hequal : (∀ d ∈ p.constraints.map orient, d.relation = .equal → d.Holds x) ↔
      ∀ c ∈ p.constraints, c.relation = .equal → c.Holds x := by
    rw [List.forall_mem_map]
    apply forall₂_congr
    intro c _
    rw [(hturned c).2.2, (hturned c).2.1]
  have hwidth : ∀ d ∈ p.constraints.map orient, d.coefficients.length = x.length := by
    intro d hd
    obtain ⟨c, hc, rfl⟩ := List.mem_map.1 hd
    rw [hlen, p.width_eq c hc, hx, variableCount]
  have hiff := Constraint.holds_withSlacks_iff (u := []) (w := w) hwidth (by rw [hcount, hw])
    (Nat.zero_add _).symm
  rw [hvalues, hequal, hw] at hiff
  exact hiff

theorem satisfies_equalities_iff (horient : ∀ c, orient c = c ∨ orient c = c.negated)
    (hx : x.length = p.variableCount) : (p.equalities orient hlen).Satisfies (x ++ w) ↔
      w = p.slackValues x ∧ ∀ c ∈ p.constraints, c.relation = .equal → c.Holds x := by
  refine ⟨?_, ?_⟩
  · intro h
    have hlength := h.length_eq
    rw [List.length_append, variableCount_equalities, hx] at hlength
    exact (holds_equalities_iff horient hx (Nat.add_left_cancel hlength)).1 h.holds
  · intro h
    have hlength : w.length = p.inequalityCount := by rw [h.1, length_slackValues]
    refine ⟨?_, (holds_equalities_iff horient hx hlength).2 h⟩
    rw [List.length_append, variableCount_equalities, hx, hlength]

theorem nonneg_slackValues_iff :
    ((∀ v ∈ p.slackValues x, 0 ≤ v) ∧ ∀ c ∈ p.constraints, c.relation = .equal → c.Holds x) ↔
      ∀ c ∈ p.constraints, c.Holds x := by
  refine ⟨?_, ?_⟩
  · intro h c hc
    obtain ⟨hslack, hequal⟩ := h
    by_cases hrel : c.relation = .equal
    · exact hequal c hc hrel
    · have hsome := (Constraint.isInequality_iff_slack (c := c)).1 (c.isInequality_iff.2 hrel)
      obtain ⟨s, hs⟩ := Option.isSome_iff_exists.1 hsome
      have hvalue := Constraint.slackValue?_of_slack hs x
      exact (Constraint.holds_iff_slackValue? hvalue).2
        (hslack _ (List.mem_filterMap.2 ⟨c, hc, hvalue⟩))
  · intro h
    refine ⟨fun v hv => ?_, fun c hc _ => h c hc⟩
    obtain ⟨c, hc, hvalue⟩ := List.mem_filterMap.1 hv
    exact (Constraint.holds_iff_slackValue? hvalue).1 (h c hc)

theorem feasible_equalities_iff (horient : ∀ c, orient c = c ∨ orient c = c.negated)
    (hx : x.length = p.variableCount) : (p.equalities orient hlen).Feasible (x ++ w) ↔
      w = p.slackValues x ∧ p.Feasible x := by
  refine ⟨?_, ?_⟩
  · intro h
    obtain ⟨hsat, hnonneg⟩ := h
    obtain ⟨rfl, hequal⟩ := (satisfies_equalities_iff horient hx).1 hsat
    rw [List.forall_mem_append] at hnonneg
    exact ⟨rfl, ⟨hx, nonneg_slackValues_iff.1 ⟨hnonneg.2, hequal⟩⟩, hnonneg.1⟩
  · intro h
    obtain ⟨rfl, hfeasible⟩ := h
    obtain ⟨hslack, hequal⟩ := nonneg_slackValues_iff.2 hfeasible.holds
    refine ⟨(satisfies_equalities_iff horient hx).2 ⟨rfl, hequal⟩, ?_⟩
    rw [List.forall_mem_append]
    exact ⟨hfeasible.nonneg, hslack⟩

theorem objectiveAt_equalities (hx : x.length = p.variableCount) :
    (p.equalities orient hlen).objectiveAt (x ++ w) = p.objectiveAt x := by
  show dot (p.objective ++ List.replicate p.inequalityCount 0) (x ++ w) = dot p.objective x
  rw [dot_append hx.symm, dot_replicate_zero, add_zero]

/-! ### feasible points and optima, there and back -/

theorem feasible_withSlackValues (horient : ∀ c, orient c = c ∨ orient c = c.negated)
    (hx : p.Feasible x) : (p.equalities orient hlen).Feasible (p.withSlackValues x) :=
  (feasible_equalities_iff horient hx.length_eq).2 ⟨rfl, hx⟩

theorem length_take_of_satisfies {y : List Rat} (hy : (p.equalities orient hlen).Satisfies y) :
    (y.take p.variableCount).length = p.variableCount := by
  have hlength := hy.length_eq
  rw [variableCount_equalities] at hlength
  rw [List.length_take]
  omega

theorem feasible_take (horient : ∀ c, orient c = c ∨ orient c = c.negated) {y : List Rat}
    (hy : (p.equalities orient hlen).Feasible y) : p.Feasible (y.take p.variableCount) := by
  have htake := length_take_of_satisfies hy.toSatisfies
  rw [← List.take_append_drop p.variableCount y] at hy
  exact ((feasible_equalities_iff horient htake).1 hy).2

theorem objectiveAt_take {y : List Rat} (hy : (p.equalities orient hlen).Satisfies y) :
    p.objectiveAt (y.take p.variableCount) = (p.equalities orient hlen).objectiveAt y := by
  have htake := length_take_of_satisfies hy
  rw [← objectiveAt_equalities (w := y.drop p.variableCount) htake, List.take_append_drop]

theorem unbounded_of_equalities (horient : ∀ c, orient c = c ∨ orient c = c.negated)
    (h : (p.equalities orient hlen).Unbounded) : p.Unbounded := by
  intro bound
  obtain ⟨y, hy, hbeats⟩ := h bound
  refine ⟨y.take p.variableCount, feasible_take horient hy, ?_⟩
  rw [objectiveAt_take hy.toSatisfies]
  exact hbeats

theorem optimum_take_iff (horient : ∀ c, orient c = c ∨ orient c = c.negated) {y : List Rat}
    (hy : (p.equalities orient hlen).Feasible y) :
    p.Optimum (y.take p.variableCount) ↔ (p.equalities orient hlen).Optimum y := by
  refine ⟨?_, ?_⟩
  · intro hbest
    refine ⟨hy, fun z hz => ?_⟩
    rw [← objectiveAt_take hy.toSatisfies, ← objectiveAt_take hz.toSatisfies]
    exact hbest.best _ (feasible_take horient hz)
  · intro hbest
    refine ⟨feasible_take horient hy, fun z hz => ?_⟩
    have hslack : (p.equalities orient hlen).Feasible (p.withSlackValues z) :=
      feasible_withSlackValues horient hz
    have hprefers := hbest.best _ hslack
    rwa [withSlackValues, objectiveAt_equalities hz.length_eq, ← objectiveAt_take hy.toSatisfies]
      at hprefers

end

/-! ### right sides -/

theorem rhs_nonneg_standardForm (p : Problem Rat) :
    ∀ d ∈ p.standardForm.constraints, 0 ≤ d.rhs :=
  (normalForm_standardForm fun _ _ h => neg_nonneg.2 (not_le.1 h).le).rhs_nonneg

end Problem

end LinearProgram
