import LinearProgram.Problem

/-!
# Unit columns and the starting basis

A unit column of a row has a `1` in that row and zeros in all others.  The starting basis gives
every row its leftmost unit column.

Columns are read from left to right until every row has one, and a column is read downwards until
an entry rules it out; only what is read has to be there.  `none` says that a row was too short
where it was read.  A problem is rectangular, so its starting basis is always defined
(`Problem.startingBasis`).

* `unitRowFrom?_isSome`     on a full column the scan is defined;
* `startingBasis?_isSome`   on a rectangular matrix the search is defined.
-/

namespace LinearProgram

variable {α : Type} [Scalar α]

/-- the entries of a column, `none` where a row is too short -/
def columnOf (matrix : List (List α)) (column : Nat) : List (Option α) :=
  matrix.map (·[column]?)

/-- Reads on from row `row`, where `one?` is the row of the `1` seen above.  The answer is the row
of the only `1` of a unit column. -/
def unitRowFrom? (row : Nat) (one? : Option Nat) : List (Option α) → Option (Option Nat)
  | [] => some one?
  | none :: _ => none
  | some a :: below =>
    if a == 1 && one?.isNone then unitRowFrom? (row + 1) (some row) below
    else if a == 0 then unitRowFrom? (row + 1) one? below
    else some none

def unitRow? (column : List (Option α)) : Option (Option Nat) := unitRowFrom? 0 none column

/-- the row takes the column unless it has one already -/
def giveColumn (owned : List (Option Nat)) (row column : Nat) : List (Option Nat) :=
  match owned[row]? with
  | some none => owned.set row (some column)
  | _ => owned

/-- The columns owned by the rows once `columns` have been tried in order. -/
def ownColumns? (matrix : List (List α)) :
    List (Option Nat) → List Nat → Option (List (Option Nat))
  | owned, [] => some owned
  | owned, column :: rest =>
    if owned.all (·.isSome) then some owned
    else
      match unitRow? (columnOf matrix column) with
      | none => none
      | some none => ownColumns? matrix owned rest
      | some (some row) => ownColumns? matrix (giveColumn owned row column) rest

/-- the leftmost unit column of every row, in the order of the rows -/
def startingBasis? (matrix : List (List α)) : Option (Except (Failure α) (List Nat)) :=
  let width := (matrix.head?.map (·.length)).getD 0
  (ownColumns? matrix (matrix.map fun _ => none) (List.range width)).map fun owned =>
    if owned.all (·.isSome) then .ok (owned.filterMap id)
    else .error (.noInitialBasis (owned.countP (·.isSome)) matrix.length)

/-! ### where the search is defined -/

theorem unitRowFrom?_isSome {column : List (Option α)} (h : ∀ a ∈ column, a.isSome) (row : Nat)
    (one? : Option Nat) : (unitRowFrom? row one? column).isSome := by
  induction column generalizing row one? with
  | nil => rfl
  | cons a below ih =>
    obtain ⟨a, rfl⟩ := Option.isSome_iff_exists.1 (h a List.mem_cons_self)
    have ih := ih fun b hb => h b (List.mem_cons_of_mem _ hb)
    rw [unitRowFrom?]
    split
    · exact ih _ _
    · split
      · exact ih _ _
      · rfl

omit [Scalar α] in
theorem isSome_of_mem_columnOf {matrix : List (List α)} {width : Nat}
    (h : ∀ row ∈ matrix, row.length = width) {column : Nat} (hc : column < width) :
    ∀ a ∈ columnOf matrix column, a.isSome := by
  intro a ha
  obtain ⟨row, hrow, rfl⟩ := List.mem_map.1 ha
  have := h row hrow
  simp [show column < row.length by omega]

theorem ownColumns?_isSome {matrix : List (List α)} {width : Nat}
    (h : ∀ row ∈ matrix, row.length = width) (columns : List Nat)
    (hc : ∀ j ∈ columns, j < width) (owned : List (Option Nat)) :
    (ownColumns? matrix owned columns).isSome := by
  induction columns generalizing owned with
  | nil => rfl
  | cons column rest ih =>
    have ih := ih fun j hj => hc j (List.mem_cons_of_mem _ hj)
    have hunit : (unitRow? (columnOf matrix column)).isSome :=
      unitRowFrom?_isSome (isSome_of_mem_columnOf h (hc column List.mem_cons_self)) _ _
    rw [ownColumns?]
    split
    · rfl
    · split
      · next hnone => rw [hnone] at hunit; exact absurd hunit (by simp)
      · exact ih _
      · exact ih _

theorem startingBasis?_isSome {matrix : List (List α)} {width : Nat}
    (h : ∀ row ∈ matrix, row.length = width) : (startingBasis? matrix).isSome := by
  unfold startingBasis?
  rw [Option.isSome_map]
  cases matrix with
  | nil => rfl
  | cons row rest =>
    refine ownColumns?_isSome h _ (fun j hj => ?_) _
    have := h row List.mem_cons_self
    simpa [this] using hj

/-- the basis of unit columns that a problem starts from -/
def Problem.startingBasis (p : Problem α) : Except (Failure α) (List Nat) :=
  (startingBasis? p.matrix).get
    (startingBasis?_isSome fun _ hrow => p.length_of_mem_matrix hrow)

end LinearProgram
