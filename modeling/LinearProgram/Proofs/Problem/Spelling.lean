import LinearProgram.Problem.StandardForm
import LinearProgram.Proofs.Problem.Turned

/-!
# Inequalities written the other way

An inequality can be written with `<=` or, both of its sides negated, with `>=`.  Where a number
negated twice is itself, a form that turns each row the way it needs cannot tell which of the two
it was given: only the first equality, the number of inequalities and the turned rows go into it,
and they are the same for both.

* `Problem.respelled`            a problem with some of its rows negated;
* `map_respelled`                what is the same for both spellings of a row;
* `equalities_respelled`         the standard forms;
* `prepared_respelled`, `dual_respelled`   the forms for the dual.
-/

namespace LinearProgram

variable {α : Type} [Scalar α]

/-! ### one row -/

namespace Constraint

variable (hneg : ∀ a : α, - -a = a) {c : Constraint α}
include hneg

theorem negated_negated (c : Constraint α) : c.negated.negated = c := by
  have hmap : (c.coefficients.map (-·)).map (-·) = c.coefficients := by
    rw [List.map_map]
    exact (List.map_congr_left fun a _ => hneg a).trans (List.map_id _)
  obtain ⟨coefficients, relation, rhs⟩ := c
  simp only [negated, hmap, hneg, Relation.flipped_flipped]

theorem toward_negated {target : Relation} (htarget : target ≠ .equal)
    (h : c.relation ≠ .equal) : c.negated.toward target = c.toward target := by
  have hflipped : c.relation.flipped = target ↔ ¬ c.relation = target := by
    revert htarget h
    cases target <;> cases c.relation <;> decide
  rw [toward, toward, relation_negated, negated_negated hneg]
  by_cases hrel : c.relation = target
  · rw [if_pos hrel, if_neg fun hflip => hflipped.1 hflip hrel]
  · rw [if_neg hrel, if_pos (hflipped.2 hrel)]

theorem asLessEqual_negated (h : c.relation ≠ .equal) : c.negated.asLessEqual = c.asLessEqual :=
  toward_negated hneg (by decide) h

theorem withNonnegRhs_negated (h : 0 ≤ -c.rhs ↔ ¬ 0 ≤ c.rhs) :
    c.negated.withNonnegRhs = c.withNonnegRhs := by
  have hturned : c.negated.rhs = -c.rhs := rfl
  rw [withNonnegRhs, withNonnegRhs, negated_negated hneg, hturned]
  by_cases hrhs : 0 ≤ c.rhs
  · rw [if_pos hrhs, if_neg fun hnonneg => h.1 hnonneg hrhs]
  · rw [if_neg hrhs, if_pos (h.2 hrhs)]

end Constraint

/-! ### a problem -/

namespace Problem

/-- the problem with the chosen rows negated -/
def respelled (p : Problem α) (chosen : Nat → Bool) : Problem α where
  objective := p.objective
  sense := p.sense
  constraints := p.constraints.mapIdx fun i c => if chosen i then c.negated else c
  width_eq d hd := by
    obtain ⟨i, hi, rfl⟩ := List.mem_mapIdx.1 hd
    have hwidth := p.width_eq _ (List.getElem_mem hi)
    split
    · rw [Constraint.length_negated, hwidth]
    · exact hwidth

variable {p : Problem α} {chosen : Nat → Bool}

theorem map_respelled {β : Type} {f : Constraint α → β}
    (h : ∀ i c, p.constraints[i]? = some c → chosen i → f c.negated = f c) :
    (p.respelled chosen).constraints.map f = p.constraints.map f := by
  refine List.ext_getElem? fun i => ?_
  rw [respelled, List.getElem?_map, List.getElem?_mapIdx, List.getElem?_map]
  cases hget : p.constraints[i]? with
  | none => rfl
  | some c =>
    rw [Option.map_some, Option.map_some, Option.map_some]
    split
    next hi => rw [h i c hget hi]
    next => rfl

theorem inequalityCount_respelled : (p.respelled chosen).inequalityCount = p.inequalityCount := by
  have hcount (q : Problem α) : q.inequalityCount =
      (q.constraints.map (·.isInequality)).countP id := by
    rw [List.countP_map]
    rfl
  rw [hcount, hcount, map_respelled fun _ _ _ _ => Constraint.isInequality_turned (Or.inr rfl)]

/-- only the turned rows go into a form with slacks -/
theorem equalities_respelled {orient : Constraint α → Constraint α}
    {hlen : ∀ c, (orient c).coefficients.length = c.coefficients.length}
    (h : ∀ i c, p.constraints[i]? = some c → chosen i → orient c.negated = orient c) :
    (p.respelled chosen).equalities orient hlen = p.equalities orient hlen := by
  refine Problem.ext ?_ rfl ?_
  · show _ ++ List.replicate (p.respelled chosen).inequalityCount 0 = _
    rw [inequalityCount_respelled]
    rfl
  · show Constraint.withSlacks (p.respelled chosen).inequalityCount 0 _ = _
    rw [inequalityCount_respelled, map_respelled h]
    rfl

theorem firstEquality?_respelled : (p.respelled chosen).firstEquality? = p.firstEquality? := by
  have hfirst (q : Problem α) : q.firstEquality? =
      (q.constraints.map (·.isInequality)).findIdx? (!·) := by
    rw [List.findIdx?_map, firstEquality?]
    congr 1
    funext c
    rw [Function.comp_apply, Constraint.isInequality]
    cases c.relation <;> rfl
  rw [hfirst, hfirst, map_respelled fun _ _ _ _ => Constraint.isInequality_turned (Or.inr rfl)]

section
variable (hneg : ∀ a : α, - -a = a)
  (hchosen : ∀ i c, p.constraints[i]? = some c → chosen i → c.relation ≠ .equal)
include hneg hchosen

theorem dualStandardForm_respelled : (p.respelled chosen).dualStandardForm = p.dualStandardForm :=
  equalities_respelled fun i c hget hi => Constraint.asLessEqual_negated hneg (hchosen i c hget hi)

theorem turned_respelled : (p.respelled chosen).turned = p.turned := by
  have htarget : p.sense.rowRelation ≠ .equal := by cases p.sense <;> decide
  exact Problem.ext rfl rfl (map_respelled fun i c hget hi =>
    Constraint.toward_negated hneg htarget (hchosen i c hget hi))

theorem prepared_respelled : (p.respelled chosen).prepared = p.prepared := by
  rw [prepared, prepared, firstEquality?_respelled, turned_respelled hneg hchosen]

theorem dual_respelled : (p.respelled chosen).dual = p.dual := by
  rw [dual, dual, prepared_respelled hneg hchosen]

end

end Problem

end LinearProgram
