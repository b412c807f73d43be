import LinearProgram.Proofs.Double.Total
import LinearProgram.Proofs.Tableau.Candidates

/-!
# The searches over doubles

A search goes once through its numbered values and keeps the least so far, with its number.  It
starts from a bound: what is not below the bound is never taken, and of equal values the first one
stays.  NaN is below nothing and nothing is below it, so that all values which can be taken are in
order, whatever else stands in the tableau.

* `runningLeast`               one pass over numbered values, from a bound;
* `Scanned`, `Scanned.foldl`   what a pass has found, kept by each of its steps;
* `firstLeast_filter`          the first of the least among the values below the bound;
* `enteringColumn_eq_running`, `leavingRow_eq_running`, ...   the searches as passes;
* `IsFirstLeast`, `Finds`      the first index of the least value among the candidates, if any;
* `Tableau.searches_find_first_least`      all four searches.
-/

namespace LinearProgram

open Double

/-! ### one pass -/

section
variable {α : Type} [LT α] [DecidableLT α]

/-- what is below the least value so far takes over, with its number -/
def takeLess (best : α × Option Nat) (c : α × Nat) : α × Option Nat :=
  if c.1 < best.1 then (c.1, some c.2) else best

/-- The least value below the bound with its number, in one pass.  The bound itself has no number. -/
def runningLeast (bound : α) (cs : List (α × Nat)) : α × Option Nat :=
  cs.foldl takeLess (bound, none)

end

/-- What a pass from the bound has found in `cs`: that nothing is below the bound, or the first of
the least values that are. -/
inductive Scanned (bound : Float) (cs : List (Float × Nat)) : Float × Option Nat → Prop where
  | empty (hnone : ∀ c ∈ cs, ¬ c.1 < bound) : Scanned bound cs (bound, none)
  | found {a : Float} {i : Nat} (hmem : (a, i) ∈ cs) (hbelow : a < bound)
    (hleast : ∀ c ∈ cs, c.1 < bound → a ≤ c.1)
    (hfirst : ∀ c ∈ cs, c.1 < bound → c.2 < i → a < c.1) : Scanned bound cs (a, some i)

section
variable {bound : Float} {cs ds : List (Float × Nat)} {best : Float × Option Nat} {d : Float × Nat}

/-- one more value, numbered above all before it -/
theorem Scanned.step (h : Scanned bound cs best) (hnumber : ∀ c ∈ cs, c.2 < d.2) :
    Scanned bound (cs ++ [d]) (takeLess best d) := by
  have hmem : ∀ c, c ∈ cs ++ [d] → c ∈ cs ∨ c = d := by
    intro c hc
    rw [List.mem_append, List.mem_singleton] at hc
    exact hc
  have hlast : d ∈ cs ++ [d] := List.mem_append_right _ (List.mem_singleton.2 rfl)
  unfold takeLess
  cases h with
  | empty hnone =>
    by_cases hd : d.1 < bound
    · rw [if_pos hd]
      refine .found hlast hd ?_ ?_
      · intro c hc hlt
        rcases hmem c hc with hc | rfl
        · exact absurd hlt (hnone c hc)
        · exact le_refl (isNaN_of_lt hd).1
      · intro c hc hlt hi
        rcases hmem c hc with hc | rfl
        · exact absurd hlt (hnone c hc)
        · exact absurd hi (Nat.lt_irrefl _)
    · rw [if_neg hd]
      refine .empty ?_
      intro c hc
      rcases hmem c hc with hc | rfl
      · exact hnone c hc
      · exact hd
  | @found a i hai hbelow hleast hfirst =>
    by_cases hd : d.1 < a
    · rw [if_pos hd]
      have hbeats : ∀ c ∈ cs, c.1 < bound → d.1 < c.1 := by
        intro c hc hlt
        exact lt_of_lt_of_le (isNaN_of_lt hlt).1 hd (hleast c hc hlt)
      refine .found hlast (lt_trans hd hbelow) ?_ ?_
      · intro c hc hlt
        rcases hmem c hc with hc | rfl
        · exact le_of_lt (hbeats c hc hlt)
        · exact le_refl (isNaN_of_lt hd).1
      · intro c hc hlt hi
        rcases hmem c hc with hc | rfl
        · exact hbeats c hc hlt
        · exact absurd hi (Nat.lt_irrefl _)
    · rw [if_neg hd]
      refine .found (List.mem_append_left _ hai) hbelow ?_ ?_
      · intro c hc hlt
        rcases hmem c hc with hc | rfl
        · exact hleast c hc hlt
        · exact (not_lt_iff_le (isNaN_of_lt hlt).1 (isNaN_of_lt hbelow).1).1 hd
      · intro c hc hlt hi
        rcases hmem c hc with hc | rfl
        · exact hfirst c hc hlt hi
        · -- the last number is not below that of a value before it
          have hnumber := hnumber (a, i) hai
          exact absurd hi (Nat.lt_asymm hnumber)

theorem Scanned.foldl (h : Scanned bound cs best)
    (hnumbers : (cs ++ ds).Pairwise fun c d => c.2 < d.2) :
    Scanned bound (cs ++ ds) (ds.foldl takeLess best) := by
  induction ds generalizing cs best with
  | nil =>
    rw [List.append_nil]
    exact h
  | cons d ds ih =>
    have hsplit : cs ++ d :: ds = cs ++ [d] ++ ds := by simp
    have hbefore : ∀ c ∈ cs, c.2 < d.2 := by
      intro c hc
      exact (List.pairwise_append.1 hnumbers).2.2 c hc d List.mem_cons_self
    rw [hsplit] at hnumbers ⊢
    exact ih (h.step hbefore) hnumbers

theorem scanned_runningLeast (hnumbers : cs.Pairwise fun c d => c.2 < d.2) :
    Scanned bound cs (runningLeast bound cs) := by
  have hstart : Scanned bound [] (bound, none) := .empty nofun
  exact hstart.foldl hnumbers

/-! ### the values below the bound -/

/-- once a value is taken, only values below the bound take over -/
theorem foldl_takeLess_some {b : Float} {i : Nat} (hb : b < bound) (cs : List (Float × Nat)) :
    (cs.foldl takeLess (b, some i)).2 = some ((cs.filter fun c => c.1 < bound).foldl
      (fun best d => if d.1 < best.1 then d else best) (b, i)).2 := by
  induction cs generalizing b i with
  | nil => rfl
  | cons d cs ih =>
    rw [List.foldl_cons, List.filter_cons, takeLess]
    by_cases hd : d.1 < b
    · have hbelow : d.1 < bound := lt_trans hd hb
      rw [if_pos hd, if_pos (decide_eq_true hbelow), List.foldl_cons, if_pos hd]
      exact ih hbelow
    · rw [if_neg hd]
      by_cases hbelow : d.1 < bound
      · rw [if_pos (decide_eq_true hbelow), List.foldl_cons, if_neg hd]
        exact ih hb
      · rw [if_neg (by rw [decide_eq_true_iff]; exact hbelow)]
        exact ih hb

theorem firstLeast_filter (bound : Float) (cs : List (Float × Nat)) :
    firstLeast (cs.filter fun c => c.1 < bound) = (runningLeast bound cs).2 := by
  unfold runningLeast
  induction cs with
  | nil => rfl
  | cons d cs ih =>
    rw [List.foldl_cons, List.filter_cons, takeLess]
    by_cases hd : d.1 < bound
    · rw [if_pos (decide_eq_true hd), if_pos hd, foldl_takeLess_some hd]
      rfl
    · rw [if_neg (by rw [decide_eq_true_iff]; exact hd), if_neg hd]
      exact ih

end

/-! ### the searches as passes -/

namespace Tableau

/-- the ratios of the rows with an entry above the tolerance, with their rows -/
def leavingRatios (t : Tableau Float) (column : Nat) (tolerance : Float) : List (Float × Nat) :=
  t.constraintRows.zipIdx.filterMap fun (row, i) =>
    let entry := row.getD column 0
    if tolerance < entry then some (row.getD t.rhsColumn 0 / entry, i) else none

/-- the absolute ratios of the columns with an entry below minus the tolerance, with their columns -/
def dualEnteringRatios (t : Tableau Float) (row : Nat) (tolerance : Float) : List (Float × Nat) :=
  (t.costs.zip (t.rows.getD row [])).zipIdx.filterMap fun ((cost, entry), j) =>
    if entry < -tolerance then some ((cost / entry).abs, j) else none

variable (t : Tableau Float) (tolerance : Float)

theorem enteringColumn_eq_running :
    t.enteringColumn tolerance = (runningLeast (-tolerance) t.costs.zipIdx).2 :=
  firstLeast_filter (-tolerance) t.costs.zipIdx

theorem dualLeavingRow_eq_running :
    t.dualLeavingRow tolerance = (runningLeast (-tolerance) t.rhsByRow).2 :=
  firstLeast_filter (-tolerance) t.rhsByRow

theorem leavingCandidates_eq (column : Nat) : t.leavingCandidates column tolerance =
    (t.leavingRatios column tolerance).filter fun c => c.1 < 1 / 0 := by
  rw [leavingCandidates, leavingRatios, List.filter_filterMap]
  apply List.filterMap_congr
  rintro ⟨row, i⟩ -
  dsimp only
  by_cases hentry : tolerance < row.getD column 0
  · rw [if_pos hentry, Option.filter_some, decide_eq_true hentry, Bool.true_and]
    rfl
  · rw [if_neg hentry, Option.filter_none, decide_eq_false hentry, Bool.false_and,
      if_neg Bool.false_ne_true]

theorem dualEnteringCandidates_eq (row : Nat) : t.dualEnteringCandidates row tolerance =
    (t.dualEnteringRatios row tolerance).filter fun c => c.1 < 1 / 0 := by
  rw [dualEnteringCandidates, dualEnteringRatios, List.filter_filterMap]
  apply List.filterMap_congr
  rintro ⟨⟨cost, entry⟩, j⟩ -
  dsimp only
  by_cases hentry : entry < -tolerance
  · rw [if_pos hentry, Option.filter_some, decide_eq_true hentry, Bool.true_and]
    rfl
  · rw [if_neg hentry, Option.filter_none, decide_eq_false hentry, Bool.false_and,
      if_neg Bool.false_ne_true]

theorem leavingRow_eq_running (column : Nat) : t.leavingRow column tolerance =
    (runningLeast (1 / 0) (t.leavingRatios column tolerance)).2 := by
  rw [leavingRow, leavingCandidates_eq, firstLeast_filter]

theorem dualEnteringColumn_eq_running (row : Nat) : t.dualEnteringColumn row tolerance =
    (runningLeast (1 / 0) (t.dualEnteringRatios row tolerance)).2 := by
  rw [dualEnteringColumn, dualEnteringCandidates_eq, firstLeast_filter]

end Tableau

/-! ### the first of the least -/

/-- the first index of the least value among the candidates -/
structure IsFirstLeast (candidate : Nat → Prop) (value : Nat → Float) (i : Nat) : Prop where
  holds : candidate i
  least : ∀ k, candidate k → value i ≤ value k
  first : ∀ k, candidate k → k < i → value i < value k

/-- the search finds the first index of the least value, and nothing only where there is no
candidate -/
structure Finds (found : Option Nat) (candidate : Nat → Prop) (value : Nat → Float) : Prop where
  eq_some_iff : ∀ i, found = some i ↔ IsFirstLeast candidate value i
  eq_none_iff : found = none ↔ ∀ i, ¬ candidate i

section
variable {candidate : Nat → Prop} {value : Nat → Float}

theorem IsFirstLeast.not_lt {i k : Nat} (hnumber : ∀ n, candidate n → (value n).isNaN = false)
    (hi : IsFirstLeast candidate value i) (hk : IsFirstLeast candidate value k) : ¬ i < k := by
  intro hlt
  have hfirst : value k < value i := hk.first i hi.holds hlt
  have hleast : value i ≤ value k := hi.least k hk.holds
  exact lt_irrefl _ (lt_of_lt_of_le (hnumber k hk.holds) hfirst hleast)

theorem IsFirstLeast.unique {i k : Nat} (hnumber : ∀ n, candidate n → (value n).isNaN = false)
    (hi : IsFirstLeast candidate value i) (hk : IsFirstLeast candidate value k) : i = k :=
  Nat.le_antisymm (Nat.not_lt.1 (hk.not_lt hnumber hi)) (Nat.not_lt.1 (hi.not_lt hnumber hk))

/-- a pass over values whose numbers increase -/
theorem finds_runningLeast {bound : Float} {cs : List (Float × Nat)}
    (hnumbers : cs.Pairwise fun c d => c.2 < d.2)
    (hmem : ∀ a i, (a, i) ∈ cs.filter (fun c => c.1 < bound) ↔ candidate i ∧ value i = a) :
    Finds (runningLeast bound cs).2 candidate value := by
  have hbelow : ∀ i, candidate i → (value i, i) ∈ cs ∧ value i < bound := by
    intro i hi
    have h := List.mem_filter.1 ((hmem (value i) i).2 ⟨hi, rfl⟩)
    exact ⟨h.1, of_decide_eq_true h.2⟩
  have hnumber : ∀ i, candidate i → (value i).isNaN = false := fun i hi =>
    (isNaN_of_lt (hbelow i hi).2).1
  have hscanned : Scanned bound cs (runningLeast bound cs) := scanned_runningLeast hnumbers
  generalize runningLeast bound cs = best at hscanned ⊢
  cases hscanned with
  | empty hnone =>
    have hno : ∀ i, ¬ candidate i := by
      intro i hi
      obtain ⟨hi, hlt⟩ := hbelow i hi
      exact hnone (value i, i) hi hlt
    refine ⟨?_, fun _ => hno, fun _ => rfl⟩
    intro i
    exact ⟨nofun, fun h => absurd h.holds (hno i)⟩
  | @found a k hk hlt hleast hfirst =>
    obtain ⟨hcandidate, rfl⟩ := (hmem a k).1 (List.mem_filter.2 ⟨hk, decide_eq_true hlt⟩)
    have hfound : IsFirstLeast candidate value k := by
      refine ⟨hcandidate, ?_, ?_⟩
      · intro i hi
        obtain ⟨hi, hlt⟩ := hbelow i hi
        exact hleast (value i, i) hi hlt
      · intro i hi hlt
        obtain ⟨hi, hbelow⟩ := hbelow i hi
        exact hfirst (value i, i) hi hbelow hlt
    refine ⟨?_, nofun, fun h => absurd hcandidate (h k)⟩
    intro i
    constructor
    · rintro ⟨⟩
      exact hfound
    · intro hi
      rw [hfound.unique hnumber hi]

end

theorem pairwise_zipIdx {β : Type} (l : List β) : l.zipIdx.Pairwise fun c d => c.2 < d.2 := by
  have hnumbers : (l.zipIdx.map Prod.snd).Pairwise (· < ·) := by
    rw [List.zipIdx_map_snd]
    exact List.pairwise_lt_range'
  exact List.pairwise_map.1 hnumbers

/-! ### the four searches -/

namespace Tableau

variable (t : Tableau Float) (tolerance : Float)

theorem finds_enteringColumn : Finds (t.enteringColumn tolerance)
    (fun j => j < t.variableCount ∧ t.cell t.constraintCount j < -tolerance)
    (t.cell t.constraintCount) := by
  rw [enteringColumn_eq_running]
  apply finds_runningLeast (pairwise_zipIdx _)
  intro a j
  show (a, j) ∈ t.enteringCandidates tolerance ↔ _
  rw [mem_enteringCandidates]
  constructor
  · rintro ⟨hj, rfl, hlt⟩
    exact ⟨⟨hj, hlt⟩, rfl⟩
  · rintro ⟨⟨hj, hlt⟩, rfl⟩
    exact ⟨hj, rfl, hlt⟩

theorem finds_dualLeavingRow : Finds (t.dualLeavingRow tolerance)
    (fun i => i < t.constraintCount ∧ t.rhs i < -tolerance) t.rhs := by
  rw [dualLeavingRow_eq_running]
  apply finds_runningLeast (pairwise_zipIdx _)
  intro a i
  show (a, i) ∈ t.dualLeavingCandidates tolerance ↔ _
  rw [mem_dualLeavingCandidates]
  constructor
  · rintro ⟨hi, rfl, hlt⟩
    exact ⟨⟨hi, hlt⟩, rfl⟩
  · rintro ⟨⟨hi, hlt⟩, rfl⟩
    exact ⟨hi, rfl, hlt⟩

theorem finds_leavingRow (column : Nat) : Finds (t.leavingRow column tolerance)
    (fun i => i < t.constraintCount ∧ tolerance < t.cell i column ∧
      t.rhs i / t.cell i column < 1 / 0) (fun i => t.rhs i / t.cell i column) := by
  have hnumbers : (t.leavingRatios column tolerance).Pairwise fun c d => c.2 < d.2 := by
    refine (pairwise_zipIdx t.constraintRows).filterMap _ ?_
    rintro ⟨row, i⟩ ⟨row', i'⟩ hlt c hc d hd
    dsimp only at hc hd
    split at hc <;> cases hc
    split at hd <;> cases hd
    exact hlt
  rw [leavingRow_eq_running]
  apply finds_runningLeast hnumbers
  intro a i
  rw [← leavingCandidates_eq, mem_leavingCandidates]
  constructor
  · rintro ⟨hi, hentry, htop, rfl⟩
    exact ⟨⟨hi, hentry, of_decide_eq_true htop⟩, rfl⟩
  · rintro ⟨⟨hi, hentry, htop⟩, rfl⟩
    exact ⟨hi, hentry, decide_eq_true htop, rfl⟩

theorem finds_dualEnteringColumn {row : Nat} (hrow : row ≤ t.constraintCount) :
    Finds (t.dualEnteringColumn row tolerance)
      (fun j => j < t.variableCount ∧ t.cell row j < -tolerance ∧
        (t.cell t.constraintCount j / t.cell row j).abs < 1 / 0)
      (fun j => (t.cell t.constraintCount j / t.cell row j).abs) := by
  have hnumbers : (t.dualEnteringRatios row tolerance).Pairwise fun c d => c.2 < d.2 := by
    refine (pairwise_zipIdx (t.costs.zip (t.rows.getD row []))).filterMap _ ?_
    rintro ⟨⟨z, e⟩, j⟩ ⟨⟨z', e'⟩, j'⟩ hlt c hc d hd
    dsimp only at hc hd
    split at hc <;> cases hc
    split at hd <;> cases hd
    exact hlt
  rw [dualEnteringColumn_eq_running]
  apply finds_runningLeast hnumbers
  intro a j
  rw [← dualEnteringCandidates_eq, mem_dualEnteringCandidates hrow]
  constructor
  · rintro ⟨hj, hentry, htop, rfl⟩
    exact ⟨⟨hj, hentry, of_decide_eq_true htop⟩, rfl⟩
  · rintro ⟨⟨hj, hentry, htop⟩, rfl⟩
    exact ⟨hj, hentry, decide_eq_true htop, rfl⟩

/-- Whatever the entries and the tolerance, NaN and infinities included.  A reduced cost or a right
side counts below minus the tolerance; a ratio counts below infinity, of an entry above the
tolerance or below it negated.  Of what counts each search finds the first of the least, and finds
nothing only where nothing counts.  The ratio tests read any column and any row of the tableau. -/
theorem searches_find_first_least :
    Finds (t.enteringColumn tolerance)
      (fun j => j < t.variableCount ∧ t.cell t.constraintCount j < -tolerance)
      (t.cell t.constraintCount) ∧
    Finds (t.dualLeavingRow tolerance)
      (fun i => i < t.constraintCount ∧ t.rhs i < -tolerance) t.rhs ∧
    (∀ column ≤ t.variableCount, ∃ found, t.leavingRow? column tolerance = some found ∧
      Finds found
        (fun i => i < t.constraintCount ∧ tolerance < t.cell i column ∧
          t.rhs i / t.cell i column < 1 / 0)
        (fun i => t.rhs i / t.cell i column)) ∧
    (∀ row ≤ t.constraintCount, ∃ found, t.dualEnteringColumn? row tolerance = some found ∧
      Finds found
        (fun j => j < t.variableCount ∧ t.cell row j < -tolerance ∧
          (t.cell t.constraintCount j / t.cell row j).abs < 1 / 0)
        (fun j => (t.cell t.constraintCount j / t.cell row j).abs)) := by
  refine ⟨t.finds_enteringColumn tolerance, t.finds_dualLeavingRow tolerance, ?_, ?_⟩
  · intro column hcolumn
    exact ⟨_, if_pos (Or.inl hcolumn), t.finds_leavingRow tolerance column⟩
  · intro row hrow
    exact ⟨_, if_pos hrow, t.finds_dualEnteringColumn tolerance hrow⟩

/-- ties in a column with a NaN, and in a row with an infinite ratio -/
def tiedRatios : Tableau Float where
  rows := [[2, -1, -2, -1, 8], [0 / 0, 1, 0, 0, 4], [1, 0, 0, 1, 4], [-3, 4, 8, 1 / 0, 0]]
  sense := .maximize
  variableCount := 4
  rows_ne_nil := nofun
  width_eq := by decide

theorem searches_find_first_least_tiedRatios :
    0 ≤ tiedRatios.variableCount ∧ tiedRatios.leavingRow? 0 0 = some (some 0) ∧
    IsFirstLeast
      (fun i => i < tiedRatios.constraintCount ∧ 0 < tiedRatios.cell i 0 ∧
        tiedRatios.rhs i / tiedRatios.cell i 0 < 1 / 0)
      (fun i => tiedRatios.rhs i / tiedRatios.cell i 0) 0 ∧
    0 ≤ tiedRatios.constraintCount ∧ tiedRatios.dualEnteringColumn? 0 0 = some (some 1) ∧
    IsFirstLeast
      (fun j => j < tiedRatios.variableCount ∧ tiedRatios.cell 0 j < -0 ∧
        (tiedRatios.cell tiedRatios.constraintCount j / tiedRatios.cell 0 j).abs < 1 / 0)
      (fun j => (tiedRatios.cell tiedRatios.constraintCount j / tiedRatios.cell 0 j).abs) 1 := by
  have hrow : tiedRatios.leavingRow? 0 0 = some (some 0) := by decide +kernel
  have hcolumn : tiedRatios.dualEnteringColumn? 0 0 = some (some 1) := by decide +kernel
  obtain ⟨-, -, hleaving, hentering⟩ := tiedRatios.searches_find_first_least 0
  obtain ⟨row, hrow', hfinds⟩ := hleaving 0 (Nat.zero_le _)
  obtain ⟨column, hcolumn', hfinds'⟩ := hentering 0 (Nat.zero_le _)
  obtain rfl := Option.some.inj (hrow'.symm.trans hrow)
  obtain rfl := Option.some.inj (hcolumn'.symm.trans hcolumn)
  exact ⟨Nat.zero_le _, hrow, (hfinds.eq_some_iff 0).1 rfl, Nat.zero_le _, hcolumn,
    (hfinds'.eq_some_iff 1).1 rfl⟩

end Tableau

end LinearProgram
