import LinearProgram.Method
import LinearProgram.Proofs.Tableau.Opposite

/-!
# Opposite problems

To maximise an objective is to minimise its negation.  The two problems have the same rows, so
they differ only in the costs that a tableau starts from; and those are the same numbers, but for
the slack columns, where one has a zero and the other the negation of a zero.

* `Problem.opposite`            the negated objective in the other sense;
* `Problem.Opposed`             what is left of it once slack columns are appended;
* `Opposed.transform`           both methods keep it;
* `Opposed.checkStart`          the same coefficient keeps the dual method from starting;
* `Opposed.pricedOut`           the initial tableaux are opposed too.
-/

namespace LinearProgram

/-- outcomes of one kind, the results related or the errors -/
inductive OutcomeRel {ε β γ : Type} (E : ε → ε → Prop) (R : β → γ → Prop) :
    Except ε β → Except ε γ → Prop where
  | error {e e' : ε} (h : E e e') : OutcomeRel E R (.error e) (.error e')
  | ok {b : β} {c : γ} (h : R b c) : OutcomeRel E R (.ok b) (.ok c)

/-- the same failure; a coefficient of the objective is reported negated, exactly so in the first
`own` columns, and but for the sign of a zero in the slack columns after them -/
inductive Failure.Opposed (own : Nat) : Failure Float → Failure Float → Prop where
  | same {e : Failure Float} (h : ∀ column value, e ≠ .noStartingSolution column value) :
    Opposed own e e
  | noStartingSolution {column : Nat} {value value' : Float} (halike : Double.Alike (-value) value')
    (hown : column < own → value' = -value) :
    Opposed own (.noStartingSolution column value) (.noStartingSolution column value')

/-- coefficients of one column, the second the negation of the first -/
def OpposedCoefficients (own : Nat) (c d : Float × Nat) : Prop :=
  Double.Alike (-c.1) d.1 ∧ (c.2 < own → d.1 = -c.1) ∧ c.2 = d.2

namespace Problem

/-- the negated objective in the other sense, over the same rows -/
def opposite {α : Type} [Neg α] (p : Problem α) : Problem α where
  objective := p.objective.map (-·)
  sense := p.sense.flipped
  constraints := p.constraints
  width_eq c hc := by rw [List.length_map, p.width_eq c hc]

/-- a maximisation and a minimisation over the same rows, with opposite coefficients -/
structure Opposed (own : Nat) (p q : Problem Float) : Prop where
  maximize : p.sense = .maximize
  minimize : q.sense = .minimize
  constraints_eq : p.constraints = q.constraints
  own_le : own ≤ p.variableCount
  objective : List.Forall₂ (OpposedCoefficients own) p.objective.zipIdx q.objective.zipIdx

theorem opposed_opposite {p : Problem Float} (h : p.sense = .maximize) :
    Opposed p.variableCount p p.opposite := by
  have hcosts : ∀ (cs : List Float) (k : Nat),
      List.Forall₂ (OpposedCoefficients p.variableCount) (cs.zipIdx k)
        ((cs.map (-·)).zipIdx k) := by
    intro cs
    induction cs with
    | nil => exact fun _ => .nil
    | cons c cs ih => exact fun k => .cons ⟨Double.Alike.refl _, fun _ => rfl, rfl⟩ (ih (k + 1))
  exact ⟨h, congrArg Sense.flipped h, rfl, Nat.le_refl _, hcosts p.objective 0⟩

namespace Opposed
variable {own : Nat} {p q : Problem Float} (h : Opposed own p q)
include h

theorem variableCount_eq : p.variableCount = q.variableCount := by
  have hlen := h.objective.length_eq
  rwa [List.length_zipIdx, List.length_zipIdx] at hlen

theorem constraintCount_eq : p.constraintCount = q.constraintCount :=
  congrArg List.length h.constraints_eq

/-! ### standard forms -/

/-- a slack column costs nothing in either problem -/
theorem equalities (orient : Constraint Float → Constraint Float)
    (hlen : ∀ c, (orient c).coefficients.length = c.coefficients.length) :
    Opposed own (p.equalities orient hlen) (q.equalities orient hlen) := by
  have hcount : p.inequalityCount = q.inequalityCount := by
    rw [inequalityCount, inequalityCount, h.constraints_eq]
  have hzero : Double.Alike (-0) 0 := Or.inr ⟨Double.neg_beq_zero rfl, rfl⟩
  have hzeros : ∀ n k, own ≤ k →
      List.Forall₂ (OpposedCoefficients own) ((List.replicate n (0 : Float)).zipIdx k)
        ((List.replicate n (0 : Float)).zipIdx k) := by
    intro n
    induction n with
    | zero => exact fun _ _ => .nil
    | succ n ih =>
      intro k hk
      exact .cons ⟨hzero, fun hlt => absurd hlt (Nat.not_lt.2 hk), rfl⟩ (ih (k + 1) (by omega))
  refine ⟨h.maximize, h.minimize, ?_, ?_, ?_⟩
  · show Constraint.withSlacks _ 0 _ = Constraint.withSlacks _ 0 _
    rw [hcount, h.constraints_eq]
  · rw [variableCount_equalities]
    exact Nat.le_add_right_of_le h.own_le
  · show List.Forall₂ _ (p.objective ++ _).zipIdx (q.objective ++ _).zipIdx
    rw [List.zipIdx_append, List.zipIdx_append, hcount]
    have hwidth : p.objective.length = q.objective.length := h.variableCount_eq
    rw [← hwidth]
    exact List.rel_append h.objective (hzeros _ _ (by rw [Nat.zero_add]; exact h.own_le))

theorem transform (m : Method) : Opposed own (m.transform p) (m.transform q) := by
  cases m with
  | primal => exact h.equalities _ Constraint.length_withNonnegRhs
  | dual => exact h.equalities _ Constraint.length_asLessEqual

/-! ### the start -/

theorem admits_eq {c d : Float × Nat} (hcd : OpposedCoefficients own c d) (tolerance : Float) :
    Method.admits p.sense tolerance c.1 = Method.admits q.sense tolerance d.1 := by
  rw [h.maximize, h.minimize]
  show decide (c.1 ≤ tolerance) = decide (-tolerance ≤ d.1)
  rw [decide_eq_decide, ← (Double.Alike.refl (-tolerance)).le_iff hcd.1, Double.neg_le_neg_iff]

theorem find?_not_admits (tolerance : Float) {cs ds : List (Float × Nat)}
    (hcosts : List.Forall₂ (OpposedCoefficients own) cs ds) :
    Option.Rel (OpposedCoefficients own)
      (cs.find? fun (c, _) => !Method.admits p.sense tolerance c)
      (ds.find? fun (d, _) => !Method.admits q.sense tolerance d) := by
  induction hcosts with
  | nil => exact .none
  | @cons c d cs ds hcd _ ih =>
    rw [List.find?_cons, List.find?_cons]
    dsimp only
    rw [h.admits_eq hcd tolerance]
    cases Method.admits q.sense tolerance d.1 with
    | true => exact ih
    | false => exact .some hcd

theorem checkStart (m : Method) (tolerance : Float) :
    OutcomeRel (Failure.Opposed own) Eq (m.checkStart tolerance p) (m.checkStart tolerance q) := by
  cases m with
  | primal => exact .ok rfl
  | dual =>
    have hfind := h.find?_not_admits tolerance h.objective
    unfold Method.checkStart
    dsimp only
    generalize p.objective.zipIdx.find? _ = found at hfind ⊢
    generalize q.objective.zipIdx.find? _ = found' at hfind ⊢
    cases hfind with
    | none => exact .ok rfl
    | @some c d hcd =>
      obtain ⟨c, column⟩ := c
      obtain ⟨d, column'⟩ := d
      obtain ⟨halike, hown, rfl⟩ := hcd
      exact .error (.noStartingSolution halike hown)

theorem startingBasis_eq : p.startingBasis = q.startingBasis := by
  have hmatrix : p.matrix = q.matrix := by rw [matrix, matrix, h.constraints_eq]
  have hget : some p.startingBasis = some q.startingBasis := by
    rw [startingBasis, startingBasis, Option.some_get, Option.some_get, hmatrix]
  exact Option.some.inj hget

/-! ### the initial tableau -/

theorem rawCosts : AlikeCosts p.variableCount p.rawCosts q.rawCosts := by
  have hm := h.variableCount_eq
  refine ⟨p.length_rawCosts, by rw [length_rawCosts, hm], fun j hj => ?_, ?_⟩
  · have hp : j < p.objective.length := hj
    have hq : j < q.objective.length := by rw [variableCount, variableCount] at hm; omega
    have hcoefficient := h.objective.get (by simpa using hp) (by simpa using hq)
    rw [List.get_eq_getElem, List.get_eq_getElem, List.getElem_zipIdx, List.getElem_zipIdx]
      at hcoefficient
    rw [getD_rawCosts hj, getD_rawCosts (hm ▸ hj), h.maximize, h.minimize, getD_of_lt hp,
      getD_of_lt hq]
    exact hcoefficient.1
  · -- both objective rows start with the value zero
    have hzero (costs : List Float) (hlen : costs.length = p.variableCount) :
        (costs ++ [0]).getD p.variableCount 0 = 0 := by
      rw [List.getD_append_right _ _ _ _ (by omega), hlen, Nat.sub_self]
      rfl
    have hleft : p.rawCosts = p.objective.map (-·) ++ [0] := by rw [Problem.rawCosts, h.maximize]
    have hright : q.rawCosts = q.objective ++ [0] := by rw [Problem.rawCosts, h.minimize]
    rw [hleft, hright, hzero _ (List.length_map _), hzero _ hm.symm]

theorem tableauRows_eq : p.tableauRows = q.tableauRows := by
  rw [tableauRows, tableauRows, h.constraints_eq]

theorem pricedOut (basis : List Nat) : (p.pricedOut basis).Opposed (q.pricedOut basis) := by
  have hn := h.constraintCount_eq
  have hm := h.variableCount_eq
  have hrows (row : List Float) (hrow : row ∈ p.tableauRows) := p.length_of_mem_tableauRows hrow
  have hcosts := h.rawCosts.priceOutAll hrows basis
  have hleft := p.objectiveRow_pricedOut basis
  have hright := q.objectiveRow_pricedOut basis
  rw [← h.tableauRows_eq] at hright
  refine ⟨⟨by simpa using hn, hm, fun i hi j hj => ?_, fun j hj => ?_, ?_⟩, rfl, h.maximize,
    h.minimize⟩
  · rw [constraintCount_pricedOut] at hi
    rw [Tableau.cell, Tableau.cell, rows_pricedOut basis hi, rows_pricedOut basis (hn ▸ hi),
      h.tableauRows_eq]
  · rw [Tableau.cell, Tableau.cell, constraintCount_pricedOut, constraintCount_pricedOut, hleft,
      hright]
    exact hcosts.cost j hj
  · rw [Tableau.value, Tableau.value, Tableau.rhs, Tableau.rhs, Tableau.cell, Tableau.cell,
      constraintCount_pricedOut, constraintCount_pricedOut, hleft, hright]
    show _ = (LinearProgram.priceOutAll q.rawCosts p.tableauRows basis).getD q.variableCount 0
    rw [← hm]
    exact hcosts.value

theorem initialTableau (basis : List Nat) :
    OutcomeRel (Failure.Opposed own) BasicTableau.Opposed (p.initialTableau basis)
      (q.initialTableau basis) := by
  have hrelations : q.relations = p.relations := by rw [relations, relations, h.constraints_eq]
  unfold Problem.initialTableau
  rw [hrelations, ← h.constraintCount_eq, ← h.variableCount_eq]
  split
  · exact .error (.same (by simp))
  split
  · exact .error (.same (by simp))
  split
  · exact .error (.same (by simp))
  · exact .ok (h.pricedOut basis)

end Opposed

end Problem

end LinearProgram
