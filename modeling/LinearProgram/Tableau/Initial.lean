import LinearProgram.Problem
import LinearProgram.Tableau.Pivot

/-!
# The initial tableau

The constraint rows are those of the problem with the right side appended.  The objective row
starts as `-c` for a maximisation and as `c` for a minimisation, with a zero on the right; then
every basic column is priced out: the multiple of its row that cancels its reduced cost is
taken off.

* `Problem.initialTableau`   refused unless all rows are equalities and the basis fits.
-/

namespace LinearProgram

variable {α : Type} [Scalar α]

/-- the objective row less the multiple of `row` that cancels its entry in `column` -/
def priceOut (costs : List α) (row : List α) (column : Nat) : List α :=
  let factor := costs.getD column 0
  if factor == 0 then costs else List.zipWith (fun z a => z - factor * a) costs row

/-- the objective row with the basic columns priced out, row by row -/
def priceOutAll (costs : List α) (rows : List (List α)) (basis : List Nat) : List α :=
  (rows.zip basis).foldl (fun z (row, column) => priceOut z row column) costs

theorem length_priceOut {costs row : List α} (h : row.length = costs.length) (column : Nat) :
    (priceOut costs row column).length = costs.length := by
  unfold priceOut
  dsimp only
  split
  · rfl
  · simp [h]

theorem length_priceOutAll {costs : List α} {rows : List (List α)}
    (h : ∀ row ∈ rows, row.length = costs.length) (basis : List Nat) :
    (priceOutAll costs rows basis).length = costs.length := by
  unfold priceOutAll
  induction rows generalizing costs basis with
  | nil => rfl
  | cons row rows ih =>
    cases basis with
    | nil => rfl
    | cons column basis =>
      have hrow := length_priceOut (h row List.mem_cons_self) column
      rw [List.zip_cons_cons, List.foldl_cons, ih, hrow]
      intro r hr
      rw [hrow, h r (List.mem_cons_of_mem _ hr)]

namespace Problem

/-- the constraint rows of the tableau -/
def tableauRows (p : Problem α) : List (List α) :=
  p.constraints.map fun c => c.coefficients ++ [c.rhs]

/-- the objective row before pricing out, turned into that of a maximisation -/
def rawCosts (p : Problem α) : List α :=
  match p.sense with
  | .maximize => p.objective.map (-·) ++ [0]
  | .minimize => p.objective ++ [0]

theorem length_rawCosts (p : Problem α) : p.rawCosts.length = p.variableCount + 1 := by
  unfold rawCosts
  split <;> simp [variableCount]

omit [Scalar α] in
theorem length_of_mem_tableauRows (p : Problem α) {row : List α} (h : row ∈ p.tableauRows) :
    row.length = p.variableCount + 1 := by
  obtain ⟨c, hc, rfl⟩ := List.mem_map.1 h
  simp [p.width_eq c hc, variableCount]

/-- the tableau of a problem in standard form, whatever the basis -/
def pricedOut (p : Problem α) (basis : List Nat) : BasicTableau α where
  rows := p.tableauRows ++ [priceOutAll p.rawCosts p.tableauRows basis]
  sense := p.sense
  variableCount := p.variableCount
  rows_ne_nil := by simp
  width_eq := by
    intro row hrow
    rcases List.mem_append.1 hrow with h | h
    · exact p.length_of_mem_tableauRows h
    · rw [List.mem_singleton.1 h, length_priceOutAll, length_rawCosts]
      intro r hr
      rw [p.length_of_mem_tableauRows hr, length_rawCosts]
  basis := basis

@[simp] theorem constraintCount_pricedOut (p : Problem α) (basis : List Nat) :
    (p.pricedOut basis).constraintCount = p.constraintCount := by
  simp [pricedOut, Tableau.constraintCount, tableauRows, constraintCount]

@[simp] theorem variableCount_pricedOut (p : Problem α) (basis : List Nat) :
    (p.pricedOut basis).variableCount = p.variableCount := rfl

/-- The tableau that a solve starts from.  Rows that are not equalities are refused first, then a
basis of the wrong length, then one with a column that does not exist. -/
def initialTableau (p : Problem α) (basis : List Nat) : Except (Failure α) (BasicTableau α) :=
  match p.relations.findIdx? (· != .equal) with
  | some row => .error (.notStandardForm row)
  | none =>
    if basis.length ≠ p.constraintCount then
      .error (.dimensionMismatch .basis p.constraintCount basis.length)
    else
      match basis.find? (p.variableCount ≤ ·) with
      | some column => .error (.dimensionMismatch .basisColumn p.variableCount column)
      | none => .ok (p.pricedOut basis)

theorem eq_pricedOut_of_initialTableau {p : Problem α} {basis : List Nat} {t : BasicTableau α}
    (h : p.initialTableau basis = .ok t) : t = p.pricedOut basis := by
  unfold initialTableau at h
  split at h
  · exact nomatch h
  split at h
  · exact nomatch h
  split at h
  · exact nomatch h
  · exact (Except.ok.inj h).symm

end Problem

end LinearProgram
