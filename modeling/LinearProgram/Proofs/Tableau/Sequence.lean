import LinearProgram.Proofs.Tableau.Represents

/-!
# Sequences of pivots

A pivot on an entry that is not zero keeps a tableau canonical, and changes neither the solutions of
its equations nor the objective at them.  So do any number of pivots, one after the other.

* `BasicTableau.Agrees`   two tableaux say the same of every point;
* `BasicTableau.pivots`   pivots at places, one after the other;
* `AllPivots.kept`        what each pivot of a sequence keeps, the sequence keeps;
* `Canonical.pivots`      a sequence of pivots on entries that are not zero.
-/

namespace LinearProgram

/-- the objective that the last row gives to a point, as that of a maximisation -/
def Tableau.maximizedAt (t : Tableau Rat) (x : List Rat) : Rat := t.value - dot t.costs x

namespace BasicTableau

/-! ### tableaux that agree -/

/-- the tableaux have one shape, and the same solutions with the same objective -/
structure Agrees (u t : BasicTableau Rat) : Prop where
  sense_eq : u.sense = t.sense
  variableCount_eq : u.variableCount = t.variableCount
  constraintCount_eq : u.constraintCount = t.constraintCount
  satisfies_iff : ∀ x, u.Satisfies x ↔ t.Satisfies x
  maximizedAt_eq : ∀ x, t.Satisfies x → u.maximizedAt x = t.maximizedAt x

variable {t u v : BasicTableau Rat}

theorem Agrees.refl (t : BasicTableau Rat) : t.Agrees t :=
  ⟨rfl, rfl, rfl, fun _ => Iff.rfl, fun _ _ => rfl⟩

theorem Agrees.symm (h : u.Agrees t) : t.Agrees u where
  sense_eq := h.sense_eq.symm
  variableCount_eq := h.variableCount_eq.symm
  constraintCount_eq := h.constraintCount_eq.symm
  satisfies_iff x := (h.satisfies_iff x).symm
  maximizedAt_eq x hx := (h.maximizedAt_eq x ((h.satisfies_iff x).1 hx)).symm

theorem Agrees.trans (h : v.Agrees u) (h' : u.Agrees t) : v.Agrees t where
  sense_eq := h.sense_eq.trans h'.sense_eq
  variableCount_eq := h.variableCount_eq.trans h'.variableCount_eq
  constraintCount_eq := h.constraintCount_eq.trans h'.constraintCount_eq
  satisfies_iff x := (h.satisfies_iff x).trans (h'.satisfies_iff x)
  maximizedAt_eq x hx :=
    (h.maximizedAt_eq x ((h'.satisfies_iff x).2 hx)).trans (h'.maximizedAt_eq x hx)

/-- objectives in the sense of the problem agree as those of a maximisation -/
theorem maximizedAt_eq_of_objectiveAt {t u : Tableau Rat} (hsense : u.sense = t.sense)
    {x : List Rat} (h : u.objectiveAt x = t.objectiveAt x) : u.maximizedAt x = t.maximizedAt x := by
  rw [u.objectiveAt_eq_sign, t.objectiveAt_eq_sign, hsense] at h
  have hsign := congrArg (t.sense.sign * ·) h
  simp only [Sense.sign_mul_sign_mul] at hsign
  exact hsign

/-- two tableaux of one problem agree -/
theorem Represents.agrees {p : Problem Rat} (hu : u.Represents p) (ht : t.Represents p) :
    u.Agrees t where
  sense_eq := hu.sense_eq.trans ht.sense_eq.symm
  variableCount_eq := hu.variableCount_eq.trans ht.variableCount_eq.symm
  constraintCount_eq := hu.constraintCount_eq.trans ht.constraintCount_eq.symm
  satisfies_iff x := (hu.satisfies_iff x).trans (ht.satisfies_iff x).symm
  maximizedAt_eq x hx := by
    have hp := (ht.satisfies_iff x).1 hx
    apply maximizedAt_eq_of_objectiveAt (hu.sense_eq.trans ht.sense_eq.symm)
    rw [← hu.objective_eq x hp, ht.objective_eq x hp]

/-! ### one pivot -/

/-- an entry of a constraint row, in the column of a variable, that is not zero -/
structure PivotPlace (t : BasicTableau Rat) (row column : Nat) : Prop where
  row_lt : row < t.constraintCount
  column_lt : column < t.variableCount
  cell_ne : t.cell row column ≠ 0

variable {row column : Nat}

theorem Agrees.pivot (h : t.PivotPlace row column) : (t.pivot row column).Agrees t where
  sense_eq := sense_pivot t row column
  variableCount_eq := variableCount_pivot t row column
  constraintCount_eq := constraintCount_pivot t row column
  satisfies_iff := satisfies_pivot h.row_lt h.cell_ne
  maximizedAt_eq _ hx :=
    maximizedAt_eq_of_objectiveAt (sense_pivot t row column) (objectiveAt_pivot h.row_lt h.cell_ne hx)

theorem Canonical.pivot_place (ht : t.Canonical) (h : t.PivotPlace row column) :
    (t.pivot row column).Canonical :=
  ht.pivot (isFinite_rat _) h.row_lt h.column_lt fun hzero => h.cell_ne (beq_iff_eq.1 hzero)

/-- where a method pivots at tolerance zero -/
theorem pivotPlace_of_selectPivot {m : Method}
    (h : m.selectPivot 0 t.toTableau = .ok (some (row, column))) : t.PivotPlace row column := by
  obtain ⟨hrow, hcolumn⟩ := Method.selectPivot_lt h
  exact ⟨hrow, hcolumn, fun hzero => Method.pivot_ne_zero h le_rfl (beq_iff_eq.2 hzero)⟩

/-! ### many pivots -/

section
variable {α : Type} [Scalar α]

/-- pivots at the places, one after the other -/
def pivots (t : BasicTableau α) (places : List (Nat × Nat)) : BasicTableau α :=
  places.foldl (fun u place => u.pivot place.1 place.2) t

/-- each place has the property in the tableau that the pivots before it lead to -/
def AllPivots (P : BasicTableau α → Nat → Nat → Prop) : BasicTableau α → List (Nat × Nat) → Prop
  | _, [] => True
  | t, (row, column) :: places => P t row column ∧ AllPivots P (t.pivot row column) places

theorem AllPivots.kept {P : BasicTableau α → Nat → Nat → Prop} {Q : BasicTableau α → Prop}
    (hstep : ∀ u row column, Q u → P u row column → Q (u.pivot row column)) {t : BasicTableau α}
    {places : List (Nat × Nat)} (h : AllPivots P t places) (ht : Q t) : Q (t.pivots places) := by
  induction places generalizing t with
  | nil => exact ht
  | cons place places ih =>
    obtain ⟨row, column⟩ := place
    exact ih h.2 (hstep t row column ht h.1)

end

/-- A sequence of pivots on entries that are not zero leads to a canonical tableau that says what
the first one says. -/
theorem Canonical.pivots (ht : t.Canonical) {places : List (Nat × Nat)}
    (h : AllPivots PivotPlace t places) :
    (t.pivots places).Canonical ∧ (t.pivots places).Agrees t := by
  apply AllPivots.kept (Q := fun u => u.Canonical ∧ u.Agrees t) _ h ⟨ht, Agrees.refl t⟩
  intro u row column hu hplace
  exact ⟨hu.1.pivot_place hplace, (Agrees.pivot hplace).trans hu.2⟩

end BasicTableau

end LinearProgram
