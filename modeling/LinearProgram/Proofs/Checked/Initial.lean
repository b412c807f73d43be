import LinearProgram.Proofs.Checked.Grid
import LinearProgram.Proofs.Checked.Parts
import LinearProgram.Proofs.Tableau.Entries
import LinearProgram.Proofs.Tableau.StartingBasis
import LinearProgram.Tableau.Initial

/-!
# The checked initial grid

The search for a starting basis with a count of the rows that have found theirs, and the initial
grid laid out in zeros, written row by row and priced out in place.

* `findBasis?_eq`          the starting basis of a rectangular matrix;
* `Parts.initialGrid?_eq`  the initial tableau of a problem.
-/

namespace LinearProgram
open Checked

variable {α : Type} [Scalar α]

/-! ### the starting basis -/

/-- The columns tried in order; `found` counts the rows that own one. -/
def basisFrom? (matrix : List (List α)) :
    List Nat → List (Option Nat) → Nat → Option (List (Option Nat) × Nat)
  | [], owned, found => some (owned, found)
  | column :: rest, owned, found =>
    if found = matrix.length then some (owned, found)
    else do
      match ← unitRow? (columnOf matrix column) with
      | none => basisFrom? matrix rest owned found
      | some row =>
        let owner ← owned[row]?
        if owner.isNone then
          let owned ← put? owned row (some column)
          basisFrom? matrix rest owned (found + 1)
        else basisFrom? matrix rest owned found

def findBasis? (matrix : List (List α)) : Option (Except (Failure α) (List Nat)) := do
  let width := (matrix.head?.map (·.length)).getD 0
  let (owned, found) ← basisFrom? matrix (List.range width) (matrix.map fun _ => none) 0
  if found < matrix.length then some (.error (.noInitialBasis found matrix.length))
  else some (.ok (owned.filterMap id))

omit [Scalar α] in
theorem all_isSome_iff {owned : List (Option Nat)} :
    owned.all (·.isSome) ↔ owned.countP (·.isSome) = owned.length := by
  rw [List.all_eq_true, List.countP_eq_length]

/-- the row found in a column is one of the matrix -/
theorem lt_of_isUnit {matrix : List (List α)} {column row : Nat}
    (h : IsUnit (columnOf matrix column) row) : row < matrix.length := by
  obtain ⟨a, hone, -⟩ := h.one
  obtain ⟨hlt, -⟩ := List.getElem?_eq_some_iff.1 hone
  simpa [columnOf] using hlt

theorem giveColumn_of_free {owned : List (Option Nat)} {row : Nat} (h : owned[row]? = some none)
    (column : Nat) : giveColumn owned row column = owned.set row (some column) ∧
      (giveColumn owned row column).countP (·.isSome) = owned.countP (·.isSome) + 1 := by
  obtain ⟨hrow, hnone⟩ := List.getElem?_eq_some_iff.1 h
  have hgive : giveColumn owned row column = owned.set row (some column) := by rw [giveColumn, h]
  refine ⟨hgive, ?_⟩
  rw [hgive, List.countP_set hrow, hnone]
  simp

/-- The search with a count is the search without: a row is found in the matrix, so it has an entry
to write. -/
theorem basisFrom?_eq {matrix : List (List α)} (columns : List Nat) {owned : List (Option Nat)}
    (h : Owns matrix (fun _ => True) owned) :
    basisFrom? matrix columns owned (owned.countP (·.isSome)) =
      (ownColumns? matrix owned columns).map fun last => (last, last.countP (·.isSome)) := by
  induction columns generalizing owned with
  | nil => rfl
  | cons column rest ih =>
    rw [basisFrom?, ownColumns?]
    by_cases hall : owned.all (·.isSome)
    · rw [if_pos (all_isSome_iff.1 hall |>.trans h.length_eq), if_pos hall]
      rfl
    · rw [if_neg fun hcount => hall (all_isSome_iff.2 (hcount.trans h.length_eq.symm)),
        if_neg hall]
      cases hunit : unitRow? (columnOf matrix column) with
      | none => rfl
      | some found =>
        cases found with
        | none => exact ih h
        | some row =>
          have hisUnit := isUnit_of_unitRow? hunit
          have hrow : row < owned.length := by rw [h.length_eq]; exact lt_of_isUnit hisUnit
          have hget := List.getElem?_eq_getElem hrow
          have ih := ih (h.giveColumn trivial hisUnit)
          cases howner : owned[row] with
          | none =>
            rw [howner] at hget
            obtain ⟨hgive, hcount⟩ := giveColumn_of_free hget column
            rw [hcount, hgive] at ih
            simp only [Option.bind_eq_bind, Option.bind_some, hget, put?_eq hrow, hgive]
            exact ih
          | some c =>
            rw [howner] at hget
            have hgive : giveColumn owned row column = owned := by rw [giveColumn, hget]
            rw [hgive] at ih
            simp only [Option.bind_eq_bind, Option.bind_some, hget, hgive]
            exact ih

theorem findBasis?_eq (p : Problem α) : findBasis? p.matrix = some p.startingBasis := by
  have hnone : (p.matrix.map fun _ => (none : Option Nat)).countP (·.isSome) = 0 := by
    simp [List.countP_eq_zero]
  have howns := owns_none p.matrix fun _ => True
  have hsearch := basisFrom?_eq (List.range ((p.matrix.head?.map (·.length)).getD 0)) howns
  rw [hnone] at hsearch
  have hget : startingBasis? p.matrix = some p.startingBasis := by
    rw [Problem.startingBasis, Option.some_get]
  rw [← hget, findBasis?, startingBasis?]
  dsimp only
  rw [hsearch]
  cases hlast : ownColumns? p.matrix (p.matrix.map fun _ => none)
      (List.range ((p.matrix.head?.map (·.length)).getD 0)) with
  | none => rfl
  | some owned =>
    have hlen := (howns.ownColumns? (fun _ _ => trivial) hlast).length_eq
    have hle := List.countP_le_length (p := fun o : Option Nat => o.isSome) (l := owned)
    simp only [Option.map_some, Option.bind_eq_bind, Option.bind_some]
    by_cases hall : owned.all (·.isSome)
    · have hcount := all_isSome_iff.1 hall
      rw [if_pos hall, if_neg (by omega)]
    · have hcount : owned.countP (·.isSome) ≠ owned.length := fun h => hall (all_isSome_iff.2 h)
      rw [if_neg hall, if_pos (by omega)]

/-! ### the initial grid -/

namespace Parts

/-- a row of the matrix copied into the grid, with its right side after it -/
def copyRow? (p : Parts α) (rows : List (List α)) : List α × Nat → Option (List (List α))
  | (row, i) => do
    let target ← rows[i]?
    let target ← copyFront? target p.variableCount row
    let b ← p.rhs[i]?
    let target ← put? target p.variableCount b
    put? rows i target

/-- the multiple of a row that cancels its basic column taken off the objective row -/
def priceOut? (p : Parts α) (rows : List (List α)) : Nat × Nat → Option (List (List α))
  | (column, i) => do
    let costs ← rows[p.constraintCount]?
    let factor ← costs[column]?
    if factor == 0 then some rows
    else
      let row ← rows[i]?
      let costs ← updateUpTo? (fun j z => row[j]?.map fun a => z - factor * a) costs
        (p.variableCount + 1)
      put? rows p.constraintCount costs

/-- a grid of zeros, with the rows copied into it, then the objective, which is priced out last -/
def fill? (p : Parts α) (basis : List Nat) : Option (List (List α)) := do
  let rows := List.replicate (p.constraintCount + 1) (List.replicate (p.variableCount + 1) 0)
  let rows ← p.matrix.zipIdx.foldlM p.copyRow? rows
  let costs ← rows[p.constraintCount]?
  let costs ← writeFrom? 0 costs (p.objective.map (turn (p.sense == .maximize)))
  let rows ← put? rows p.constraintCount costs
  basis.zipIdx.foldlM p.priceOut? rows

def initialGrid? (p : Parts α) (basis : List Nat) : Option (Except (Failure α) (Grid α)) :=
  match p.relations.findIdx? (· != .equal) with
  | some row => some (.error (.notStandardForm row))
  | none =>
    if basis.length ≠ p.constraintCount then
      some (.error (.dimensionMismatch .basis p.constraintCount basis.length))
    else
      match basis.find? (p.variableCount ≤ ·) with
      | some column => some (.error (.dimensionMismatch .basisColumn p.variableCount column))
      | none => do
        let rows ← p.fill? basis
        some (.ok ⟨rows, p.sense, basis⟩)

/-- all rows, from the one of index `done.length` on -/
theorem foldlM_copyRow? {p : Parts α} (last : List α) (cs : List (Constraint α)) :
    ∀ done : List (List α), p.rhs.drop done.length = cs.map (·.rhs) →
    (∀ c ∈ cs, c.coefficients.length = p.variableCount) →
    ((cs.map (·.coefficients)).zipIdx done.length).foldlM p.copyRow?
        (done ++ (List.replicate cs.length (List.replicate (p.variableCount + 1) 0) ++ [last])) =
      some (done ++ (cs.map (fun c => c.coefficients ++ [c.rhs]) ++ [last])) := by
  induction cs with
  | nil => exact fun _ _ _ => rfl
  | cons c cs ih =>
    intro done hb hm
    obtain ⟨hb, hbs⟩ := getElem?_of_drop hb
    have hc := hm c List.mem_cons_self
    have hzeros : List.replicate (p.variableCount + 1) (0 : α) =
        List.replicate p.variableCount 0 ++ [0] := List.replicate_succ'
    have hcopy : copyFront? (List.replicate (p.variableCount + 1) 0) p.variableCount
        c.coefficients = some (c.coefficients ++ [0]) := by
      rw [hzeros, ← hc]
      exact copyFront?_append (by simp) [0]
    have hright := put?_append c.coefficients 0 c.rhs []
    rw [hc] at hright
    have ih := ih (done ++ [c.coefficients ++ [c.rhs]]) (by simpa using hbs)
      fun d hd => hm d (List.mem_cons_of_mem _ hd)
    simp only [List.map_cons, List.zipIdx_cons, List.length_cons,
      List.replicate_succ (n := cs.length), List.cons_append, List.foldlM_cons, copyRow?,
      Option.bind_eq_bind, Option.bind_some, getElem?_append_cons, hcopy, hb, hright, put?_append]
    simpa using ih

section
variable {p : Parts α} {rows : List (List α)} (hrows : rows.length = p.constraintCount)
  (hwidth : ∀ row ∈ rows, row.length = p.variableCount + 1)
include hrows hwidth

theorem priceOut?_eq {costs : List α} (hcosts : costs.length = p.variableCount + 1)
    {column i : Nat} (hc : column < p.variableCount) {row : List α} (hi : rows[i]? = some row) :
    p.priceOut? (rows ++ [costs]) (column, i) = some (rows ++ [priceOut costs row column]) := by
  have hlt : column < costs.length := by omega
  obtain ⟨hi', -⟩ := List.getElem?_eq_some_iff.1 hi
  have hlast := getElem?_append_cons rows costs []
  have hrow : (rows ++ [costs])[i]? = some row := by rw [List.getElem?_append_left hi', hi]
  have hlen : costs.length = row.length := by rw [hcosts, hwidth row (List.mem_of_getElem? hi)]
  have hput (new : List α) := put?_append rows costs new []
  rw [hrows] at hlast
  rw [priceOut?, priceOut, ← hrows, ← hcosts]
  simp only [hrows, Option.bind_eq_bind, Option.bind_some, hlast, List.getElem?_eq_getElem hlt,
    getD_of_lt hlt, hrow, updateUpTo?_zipWith _ hlen]
  by_cases hzero : costs[column] == 0
  · rw [if_pos hzero, if_pos hzero]
  · rw [if_neg hzero, if_neg hzero, ← hrows, hput]

theorem foldlM_priceOut? (rest : List (List α)) :
    ∀ (basis : List Nat) (i : Nat) (costs : List α), rows.drop i = rest →
    rest.length = basis.length → costs.length = p.variableCount + 1 →
    (∀ column ∈ basis, column < p.variableCount) →
    (basis.zipIdx i).foldlM p.priceOut? (rows ++ [costs]) =
      some (rows ++ [priceOutAll costs rest basis]) := by
  induction rest with
  | nil =>
    intro basis i costs _ hlen _ _
    rw [List.eq_nil_of_length_eq_zero hlen.symm]
    rfl
  | cons row rest ih =>
    intro basis i costs hdrop hlen hcosts hbasis
    obtain ⟨column, basis, rfl⟩ := List.exists_cons_of_length_eq_add_one hlen.symm
    obtain ⟨hi, hrest⟩ := getElem?_of_drop hdrop
    have hrow := hwidth row (List.mem_of_getElem? hi)
    have hnext := length_priceOut (hrow.trans hcosts.symm) column
    rw [List.zipIdx_cons, List.foldlM_cons,
      priceOut?_eq hrows hwidth hcosts (hbasis column List.mem_cons_self) hi]
    exact ih basis (i + 1) (priceOut costs row column) hrest (Nat.succ.inj hlen)
      (hnext.trans hcosts) fun c hc => hbasis c (List.mem_cons_of_mem _ hc)

end

/-- the objective written over the zeros laid out for it -/
theorem writeFrom?_objective (q : Problem α) :
    writeFrom? 0 (List.replicate (q.parts.variableCount + 1) 0)
      (q.objective.map (turn (q.sense == .maximize))) = some q.rawCosts := by
  have hraw : q.rawCosts = q.objective.map (turn (q.sense == .maximize)) ++ [0] := by
    rw [Problem.rawCosts]
    cases q.sense with
    | maximize => rfl
    | minimize => exact congrArg (· ++ [0]) (map_turn_false q.objective).symm
  have hold : (List.replicate q.parts.variableCount (0 : α)).length =
      (q.objective.map (turn (q.sense == .maximize))).length := by
    rw [List.length_replicate, List.length_map]
    rfl
  have hwrite := writeFrom?_append [] hold [0]
  rw [hraw, List.replicate_succ']
  exact hwrite

theorem fill?_eq (q : Problem α) {basis : List Nat} (hlen : basis.length = q.constraintCount)
    (hbasis : ∀ column ∈ basis, column < q.variableCount) :
    q.parts.fill? basis = some (q.pricedOut basis).rows := by
  have hcount : q.tableauRows.length = q.parts.constraintCount := by
    show (q.constraints.map _).length = (q.constraints.map _).length
    rw [List.length_map, List.length_map]
  have hwidth : ∀ row ∈ q.tableauRows, row.length = q.parts.variableCount + 1 :=
    fun row hrow => q.length_of_mem_tableauRows hrow
  have hcopy : q.parts.matrix.zipIdx.foldlM q.parts.copyRow?
      (List.replicate (q.parts.constraintCount + 1)
        (List.replicate (q.parts.variableCount + 1) 0)) =
      some (q.tableauRows ++ [List.replicate (q.parts.variableCount + 1) 0]) := by
    rw [List.replicate_succ', ← hcount, Problem.length_tableauRows]
    exact foldlM_copyRow? _ q.constraints [] rfl fun c hc => q.width_eq c hc
  have hlast := getElem?_append_cons q.tableauRows
    (List.replicate (q.parts.variableCount + 1) 0) []
  have hput := put?_append q.tableauRows (List.replicate (q.parts.variableCount + 1) 0)
    q.rawCosts []
  have hprice := foldlM_priceOut? hcount hwidth q.tableauRows basis 0 q.rawCosts rfl
    (by rw [hlen, Problem.length_tableauRows]) q.length_rawCosts hbasis
  rw [hcount] at hlast hput
  rw [fill?]
  simp only [hcopy, Option.bind_eq_bind, Option.bind_some, hlast]
  show (writeFrom? 0 _ (q.objective.map (turn (q.sense == .maximize)))).bind _ = _
  simp only [writeFrom?_objective, Option.bind_some, hput]
  exact hprice

theorem initialGrid?_eq (q : Problem α) (basis : List Nat) : q.parts.initialGrid? basis =
    some ((q.initialTableau basis).map BasicTableau.grid) := by
  have hcount : q.parts.constraintCount = q.constraintCount := q.length_rhs
  unfold initialGrid? Problem.initialTableau
  rw [hcount]
  show (match q.relations.findIdx? _ with | some row => _ | none => _) = _
  cases q.relations.findIdx? (· != .equal) with
  | some row => rfl
  | none =>
    dsimp only
    by_cases hlen : basis.length ≠ q.constraintCount
    · rw [if_pos hlen, if_pos hlen]
      rfl
    rw [if_neg hlen, if_neg hlen]
    show (match basis.find? (q.variableCount ≤ ·) with | some column => _ | none => _) = _
    cases hfind : basis.find? (q.variableCount ≤ ·) with
    | some column => rfl
    | none =>
      have hbasis : ∀ column ∈ basis, column < q.variableCount := by
        simpa using List.find?_eq_none.1 hfind
      show (q.parts.fill? basis).bind _ = _
      rw [fill?_eq q (not_not.1 hlen) hbasis]
      rfl

end Parts

end LinearProgram
