import LinearProgram.Problem.StandardForm
import LinearProgram.Tableau.Search

/-!
# The two methods

The primal method keeps the right sides of the tableau non-negative and drives the reduced costs
up to zero; the dual method keeps the reduced costs non-negative and drives the right sides up.
A method says how a problem is brought to equalities, which problems it can start from, when it
is done, and where it pivots next.
-/

namespace LinearProgram

inductive Method where
  | primal
  | dual
  deriving DecidableEq

namespace Method

def name : Method → String
  | primal => "primal"
  | dual => "dual"

def all : List Method := [primal, dual]

def ofName? (text : String) : Option Method := all.find? (·.name == text)

theorem mem_all (m : Method) : m ∈ all := by cases m <;> decide

variable {α : Type} [Scalar α]

/-- the form of the problem that the method works on -/
def transform : Method → Problem α → Problem α
  | primal => Problem.standardForm
  | dual => Problem.dualStandardForm

theorem sense_transform (m : Method) (p : Problem α) : (m.transform p).sense = p.sense := by
  cases m <;> rfl

theorem objective_transform (m : Method) (p : Problem α) :
    (m.transform p).objective = p.objective ++ List.replicate p.inequalityCount 0 := by
  cases m <;> rfl

@[simp] theorem constraintCount_transform (m : Method) (p : Problem α) :
    (m.transform p).constraintCount = p.constraintCount := by
  cases m with
  | primal => exact p.constraintCount_equalities _ Constraint.length_withNonnegRhs
  | dual => exact p.constraintCount_equalities _ Constraint.length_asLessEqual

theorem relation_of_mem_transform (m : Method) (p : Problem α) :
    ∀ c ∈ (m.transform p).constraints, c.relation = .equal := by
  intro c hc
  cases m with
  | primal => exact p.relation_of_mem_equalities _ Constraint.length_withNonnegRhs hc
  | dual => exact p.relation_of_mem_equalities _ Constraint.length_asLessEqual hc

/-- the objective coefficients from which the dual method can start -/
def admits (sense : Sense) (tolerance c : α) : Bool :=
  match sense with
  | .minimize => -tolerance ≤ c
  | .maximize => c ≤ tolerance

/-- The first coefficient that keeps the method from starting. -/
def checkStart (m : Method) (tolerance : α) (p : Problem α) : Except (Failure α) Unit :=
  match m with
  | primal => .ok ()
  | dual =>
    match p.objective.zipIdx.find? (fun (c, _) => !admits p.sense tolerance c) with
    | some (c, column) => .error (.noStartingSolution column c)
    | none => .ok ()

/-- the tableau needs no more pivots -/
def isOptimal (m : Method) (tolerance : α) (t : Tableau α) : Bool :=
  match m with
  | primal => t.isOptimal tolerance
  | dual => t.isFeasible tolerance

/-- The row and the column of the next pivot, `none` when there is nothing left to improve. -/
def selectPivot (m : Method) (tolerance : α) (t : Tableau α) :
    Except (Failure α) (Option (Nat × Nat)) :=
  match m with
  | primal =>
    match t.enteringColumn tolerance with
    | none => .ok none
    | some column =>
      match t.leavingRow column tolerance with
      | none => .error (.unbounded column)
      | some row => .ok (some (row, column))
  | dual =>
    match t.dualLeavingRow tolerance with
    | none => .ok none
    | some row =>
      match t.dualEnteringColumn row tolerance with
      | none => .error (.infeasible row)
      | some column => .ok (some (row, column))

/-! ### the searches behind a selection -/

variable {tolerance : α} {t : Tableau α} {row column : Nat}

theorem selectPivot_primal_some (h : primal.selectPivot tolerance t = .ok (some (row, column))) :
    t.enteringColumn tolerance = some column ∧ t.leavingRow column tolerance = some row := by
  simp only [selectPivot] at h
  cases hc : t.enteringColumn tolerance with
  | none => rw [hc] at h; cases h
  | some c =>
    rw [hc] at h
    dsimp only at h
    cases hr : t.leavingRow c tolerance with
    | none => rw [hr] at h; cases h
    | some r =>
      rw [hr] at h
      cases h
      exact ⟨rfl, hr⟩

theorem selectPivot_dual_some (h : dual.selectPivot tolerance t = .ok (some (row, column))) :
    t.dualLeavingRow tolerance = some row ∧ t.dualEnteringColumn row tolerance = some column := by
  simp only [selectPivot] at h
  cases hr : t.dualLeavingRow tolerance with
  | none => rw [hr] at h; cases h
  | some r =>
    rw [hr] at h
    dsimp only at h
    cases hc : t.dualEnteringColumn r tolerance with
    | none => rw [hc] at h; cases h
    | some c =>
      rw [hc] at h
      cases h
      exact ⟨rfl, hc⟩

theorem selectPivot_primal_none (h : primal.selectPivot tolerance t = .ok none) :
    t.enteringColumn tolerance = none := by
  simp only [selectPivot] at h
  cases hc : t.enteringColumn tolerance with
  | none => rfl
  | some c =>
    rw [hc] at h
    dsimp only at h
    cases hr : t.leavingRow c tolerance with
    | none => rw [hr] at h; cases h
    | some r => rw [hr] at h; cases h

theorem selectPivot_dual_none (h : dual.selectPivot tolerance t = .ok none) :
    t.dualLeavingRow tolerance = none := by
  simp only [selectPivot] at h
  cases hr : t.dualLeavingRow tolerance with
  | none => rfl
  | some r =>
    rw [hr] at h
    dsimp only at h
    cases hc : t.dualEnteringColumn r tolerance with
    | none => rw [hc] at h; cases h
    | some c => rw [hc] at h; cases h

theorem selectPivot_primal_error {e : Failure α} (h : primal.selectPivot tolerance t = .error e) :
    ∃ column, e = .unbounded column ∧ t.enteringColumn tolerance = some column ∧
      t.leavingRow column tolerance = none := by
  simp only [selectPivot] at h
  cases hc : t.enteringColumn tolerance with
  | none => rw [hc] at h; cases h
  | some c =>
    rw [hc] at h
    dsimp only at h
    cases hr : t.leavingRow c tolerance with
    | none =>
      rw [hr] at h
      cases h
      exact ⟨c, rfl, rfl, hr⟩
    | some r => rw [hr] at h; cases h

theorem selectPivot_dual_error {e : Failure α} (h : dual.selectPivot tolerance t = .error e) :
    ∃ row, e = .infeasible row ∧ t.dualLeavingRow tolerance = some row ∧
      t.dualEnteringColumn row tolerance = none := by
  simp only [selectPivot] at h
  cases hr : t.dualLeavingRow tolerance with
  | none => rw [hr] at h; cases h
  | some r =>
    rw [hr] at h
    dsimp only at h
    cases hc : t.dualEnteringColumn r tolerance with
    | none =>
      rw [hc] at h
      cases h
      exact ⟨r, rfl, rfl, hc⟩
    | some c => rw [hc] at h; cases h

/-- the chosen entry lies in a constraint row and in the column of a variable -/
theorem selectPivot_lt {m : Method}
    (h : m.selectPivot tolerance t = .ok (some (row, column))) :
    row < t.constraintCount ∧ column < t.variableCount := by
  cases m with
  | primal =>
    obtain ⟨hc, hr⟩ := selectPivot_primal_some h
    exact ⟨Tableau.leavingRow_lt hr, Tableau.enteringColumn_lt hc⟩
  | dual =>
    obtain ⟨hr, hc⟩ := selectPivot_dual_some h
    exact ⟨Tableau.dualLeavingRow_lt hr, Tableau.dualEnteringColumn_lt hc⟩

end Method

end LinearProgram
