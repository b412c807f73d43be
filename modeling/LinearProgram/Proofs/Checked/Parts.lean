import LinearProgram.Proofs.Checked.Access
import LinearProgram.Reformulation

/-!
# Problems in parts

The parts of a problem as lists of any lengths, and the reformulations on them with each access
checked: an index outside of a list, or an assertion that fails, has no result.  On the parts of a
problem all of them have one, and it is what the reformulation of the problem gives.

* `Parts.new?_eq`          parts are refused, or they are those of a problem;
* `Parts.expand?_eq`       slack columns fit into the widened rows;
* `Parts.reformulate?_eq`  so every chain of reformulations has a result.
-/

namespace LinearProgram
open Checked

namespace Parts

variable {α : Type}

def variableCount (p : Parts α) : Nat := p.objective.length

def constraintCount (p : Parts α) : Nat := p.rhs.length

/-- a row and a relation for every right side, and a coefficient for every variable in each row -/
def Rectangular (p : Parts α) : Prop :=
  p.matrix.length = p.constraintCount ∧ p.relations.length = p.constraintCount ∧
    ∀ row ∈ p.matrix, row.length = p.variableCount

instance (p : Parts α) : Decidable p.Rectangular := inferInstanceAs (Decidable (_ ∧ _ ∧ _))

/-- the parts, asserted to be rectangular -/
def assert? (p : Parts α) : Option (Parts α) := if p.Rectangular then some p else none

/-- the parts, refused with the first length that disagrees; what passes is asserted all the same -/
def new? (p : Parts α) : Option (Except (Failure α) (Parts α)) :=
  if p.matrix.length ≠ p.constraintCount then
    some (.error (.dimensionMismatch .constraintRows p.constraintCount p.matrix.length))
  else if p.relations.length ≠ p.constraintCount then
    some (.error (.dimensionMismatch .relations p.constraintCount p.relations.length))
  else
    match p.matrix.find? (·.length != p.variableCount) with
    | some row => some (.error (.dimensionMismatch .constraintColumns p.variableCount row.length))
    | none => p.assert?.map .ok

theorem rectangular_parts (p : Problem α) : p.parts.Rectangular :=
  ⟨by simp [Problem.parts, constraintCount], by simp [Problem.parts, constraintCount],
    fun _ hrow => p.length_of_mem_matrix hrow⟩

theorem assert?_parts (p : Problem α) : p.parts.assert? = some p.parts :=
  if_pos (rectangular_parts p)

theorem replicate_eq_relations {q : Problem α} {n : Nat} {relation : Relation}
    (hn : n = q.constraintCount) (h : ∀ c ∈ q.constraints, c.relation = relation) :
    List.replicate n relation = q.relations := by
  refine (List.eq_replicate_iff.2 ⟨by rw [q.length_relations, hn], fun r hr => ?_⟩).symm
  obtain ⟨c, hc, rfl⟩ := List.mem_map.1 hr
  exact h c hc

/-- parts are accepted as the parts of a problem, or refused as they are by it -/
theorem new?_eq (p : Parts α) : p.new? =
    some ((Problem.ofParts p.objective p.sense p.matrix p.rhs p.relations).map Problem.parts) := by
  cases hof : Problem.ofParts p.objective p.sense p.matrix p.rhs p.relations with
  | error e =>
    unfold Problem.ofParts at hof
    unfold new? constraintCount variableCount
    split at hof
    next h =>
      cases hof
      rw [if_pos h]
      rfl
    next h =>
    rw [if_neg h]
    split at hof
    next h =>
      cases hof
      rw [if_pos h]
      rfl
    next h =>
    rw [if_neg h]
    split at hof
    next row hfind =>
      cases hof
      rw [hfind]
      rfl
    · cases hof
  | ok q =>
    obtain ⟨ho, hs, hm, hb, hr⟩ := Problem.parts_of_ofParts hof
    obtain rfl : q.parts = p := by rw [Problem.parts, ho, hs, hm, hb, hr]
    obtain ⟨hrows, hrelations, hwidth⟩ := rectangular_parts q
    have hfind : q.parts.matrix.find? (·.length != q.parts.variableCount) = none := by
      rw [List.find?_eq_none]
      intro row hrow
      simp [hwidth row hrow]
    rw [new?, if_neg (not_not.2 hrows), if_neg (not_not.2 hrelations), hfind]
    show q.parts.assert?.map Except.ok = _
    rw [assert?_parts]
    rfl

end Parts

/-! ### slack columns -/

theorem Constraint.map_rhs_withSlacks {α : Type} [Scalar α] (extra used : Nat)
    (cs : List (Constraint α)) : (withSlacks extra used cs).map (·.rhs) = cs.map (·.rhs) := by
  induction cs generalizing used with
  | nil => rfl
  | cons c rest ih =>
    rw [withSlacks]
    split <;> rw [List.map_cons, List.map_cons, ih]

namespace Parts

variable {α : Type} [Scalar α]

/-- the number, negated if so asked -/
def turn (negate : Bool) (a : α) : α := if negate then -a else a

/-- For a right side and a relation: is the row to be negated, and which coefficient has its slack
column, if it gets one. -/
abbrev RowRule (α : Type) := α → Relation → Bool × Option α

/-- right sides that are not below zero, NaN counting as below -/
def nonnegRule : RowRule α := fun b r =>
  let negate := !decide (0 ≤ b)
  (negate,
    match r with
    | .lessEqual => some (if negate then -1 else 1)
    | .greaterEqual => some (if negate then 1 else -1)
    | .equal => none)

/-- every inequality as `<=` -/
def lessEqualRule : RowRule α := fun _ r =>
  match r with
  | .lessEqual => (false, some 1)
  | .greaterEqual => (true, some 1)
  | .equal => (true, none)

/-- One row written into the widened matrix, with its right side; the last number is the next
column for a slack. -/
def expandRow? (rule : RowRule α) (p : Parts α) :
    List (List α) × List α × Nat → List α × Nat → Option (List (List α) × List α × Nat)
  | (rows, bs, column), (row, i) => do
    let b ← p.rhs[i]?
    let relation ← p.relations[i]?
    let (negate, slack) := rule b relation
    let target ← rows[i]?
    let target ← writeFrom? 0 target (row.map (turn negate))
    match slack with
    | some s =>
      let target ← put? target column s
      let rows ← put? rows i target
      let bs ← put? bs i (turn negate b)
      some (rows, bs, column + 1)
    | none =>
      let rows ← put? rows i target
      let bs ← put? bs i (turn negate b)
      some (rows, bs, column)

/-- rows as wide as needed are laid out first, and then written row by row -/
def expand? (rule : RowRule α) (p : Parts α) : Option (Parts α) := do
  let slacks := (p.relations.filter (· != .equal)).length
  let width := p.variableCount + slacks
  let rows := List.replicate p.constraintCount (List.replicate width 0)
  let bs := List.replicate p.constraintCount 0
  let (rows, bs, _) ← p.matrix.zipIdx.foldlM (expandRow? rule p) (rows, bs, p.variableCount)
  assert? ⟨p.objective ++ List.replicate slacks 0, p.sense, rows, bs,
    List.replicate p.constraintCount .equal⟩

/-- the rule turns rows as `orient` does, and knows their slacks -/
structure RowRule.Turns (rule : RowRule α) (orient : Constraint α → Constraint α) : Prop where
  coefficients : ∀ c, (orient c).coefficients =
    c.coefficients.map (turn (rule c.rhs c.relation).1)
  rhs : ∀ c, (orient c).rhs = turn (rule c.rhs c.relation).1 c.rhs
  slack : ∀ c, (orient c).slack = (rule c.rhs c.relation).2
  isSome : ∀ c : Constraint α, (rule c.rhs c.relation).2.isSome = c.isInequality

theorem map_turn_false (row : List α) : row.map (turn false) = row := List.map_id'' (fun _ => rfl) _

theorem turns_nonnegRule : RowRule.Turns (α := α) nonnegRule Constraint.withNonnegRhs := by
  have horient (c : Constraint α) : c.withNonnegRhs =
      if 0 ≤ c.rhs then c else c.negated := rfl
  refine ⟨fun c => ?_, fun c => ?_, fun c => ?_, fun c => ?_⟩
  all_goals obtain ⟨row, relation, b⟩ := c
  · by_cases h : 0 ≤ b
    · simp [horient, nonnegRule, h, map_turn_false]
    · simp [horient, nonnegRule, h, Constraint.negated, turn]
  · by_cases h : 0 ≤ b
    · simp [horient, nonnegRule, h, turn]
    · simp [horient, nonnegRule, h, Constraint.negated, turn]
  · by_cases h : 0 ≤ b <;> cases relation <;>
      simp [horient, nonnegRule, h, Constraint.slack, Constraint.negated, Relation.flipped]
  · cases relation <;> rfl

theorem turns_lessEqualRule : RowRule.Turns (α := α) lessEqualRule Constraint.asLessEqual := by
  refine ⟨fun c => ?_, fun c => ?_, fun c => ?_, fun c => ?_⟩
  all_goals obtain ⟨row, relation, b⟩ := c
  · cases relation with
    | lessEqual => exact (map_turn_false row).symm
    | greaterEqual => rfl
    | equal => rfl
  all_goals cases relation <;> rfl

section
variable {rule : RowRule α} {orient : Constraint α → Constraint α} (hrule : rule.Turns orient)
  {p : Parts α} {c : Constraint α} {rows rest : List (List α)} {bs rhs : List α}
  {m extra used : Nat}
include hrule

/-- the turned row written over the zeros laid out for it -/
theorem writeFrom?_turned (hm : c.coefficients.length = m) :
    writeFrom? 0 (List.replicate (m + extra) 0)
        (c.coefficients.map (turn (rule c.rhs c.relation).1)) =
      some ((orient c).coefficients ++ List.replicate extra 0) := by
  have hold : (List.replicate m (0 : α)).length =
      (c.coefficients.map (turn (rule c.rhs c.relation).1)).length := by simp [hm]
  have hwrite := writeFrom?_append [] hold (List.replicate extra 0)
  rw [List.nil_append, List.replicate_append_replicate] at hwrite
  rw [hrule.coefficients]
  exact hwrite

/-- a row that gets a slack column -/
theorem expandRow?_some {s : α} (hs : (orient c).slack = some s)
    (hb : p.rhs[rows.length]? = some c.rhs)
    (hr : p.relations[rows.length]? = some c.relation) (hm : c.coefficients.length = m)
    (hbs : bs.length = rows.length) (hused : used < extra) :
    expandRow? rule p (rows ++ List.replicate (m + extra) 0 :: rest, bs ++ 0 :: rhs, m + used)
        (c.coefficients, rows.length) =
      some (rows ++ ((orient c).coefficients ++ (List.replicate extra 0).set used s) :: rest,
        bs ++ (orient c).rhs :: rhs, m + (used + 1)) := by
  have hslack : (rule c.rhs c.relation).2 = some s := (hrule.slack c).symm.trans hs
  have hlen : (orient c).coefficients.length = m := by rw [hrule.coefficients, List.length_map, hm]
  have hput : put? ((orient c).coefficients ++ List.replicate extra 0) (m + used) s =
      some ((orient c).coefficients ++ (List.replicate extra 0).set used s) := by
    rw [put?_eq (by simp [hlen, hused]), ← hlen, List.set_append_right _ _ (by omega),
      Nat.add_sub_cancel_left]
  have hright := put?_append bs 0 (orient c).rhs rhs
  rw [hbs] at hright
  rw [hrule.rhs] at hright
  simp only [expandRow?, Option.bind_eq_bind, Option.bind_some, hb, hr, getElem?_append_cons,
    writeFrom?_turned hrule hm, hslack, hput, put?_append, hright, hrule.rhs, Nat.add_assoc]

/-- a row that gets none -/
theorem expandRow?_none (hs : (orient c).slack = none) (hb : p.rhs[rows.length]? = some c.rhs)
    (hr : p.relations[rows.length]? = some c.relation) (hm : c.coefficients.length = m)
    (hbs : bs.length = rows.length) :
    expandRow? rule p (rows ++ List.replicate (m + extra) 0 :: rest, bs ++ 0 :: rhs, m + used)
        (c.coefficients, rows.length) =
      some (rows ++ ((orient c).coefficients ++ List.replicate extra 0) :: rest,
        bs ++ (orient c).rhs :: rhs, m + used) := by
  have hslack : (rule c.rhs c.relation).2 = none := (hrule.slack c).symm.trans hs
  have hright := put?_append bs 0 (orient c).rhs rhs
  rw [hbs] at hright
  rw [hrule.rhs] at hright
  simp only [expandRow?, Option.bind_eq_bind, Option.bind_some, hb, hr, getElem?_append_cons,
    writeFrom?_turned hrule hm, hslack, put?_append, hright, hrule.rhs]

/-- All rows, from the one of index `rows.length` on: every inequality among them finds a column
of its own below `extra`. -/
theorem foldlM_expandRow? (cs : List (Constraint α)) :
    ∀ (rows : List (List α)) (bs : List α) (used : Nat), bs.length = rows.length →
    p.rhs.drop rows.length = cs.map (·.rhs) → p.relations.drop rows.length = cs.map (·.relation) →
    (∀ c ∈ cs, c.coefficients.length = m) → used + cs.countP (·.isInequality) ≤ extra →
    ∃ column,
      ((cs.map (·.coefficients)).zipIdx rows.length).foldlM (expandRow? rule p)
          (rows ++ List.replicate cs.length (List.replicate (m + extra) 0),
            bs ++ List.replicate cs.length 0, m + used) =
        some (rows ++ (Constraint.withSlacks extra used (cs.map orient)).map (·.coefficients),
          bs ++ (cs.map orient).map (·.rhs), column) := by
  induction cs with
  | nil =>
    intro rows bs used _ _ _ _ _
    exact ⟨m + used, by simp [Constraint.withSlacks]⟩
  | cons c cs ih =>
    intro rows bs used hbs hb hr hm hused
    obtain ⟨hb, hbs'⟩ := getElem?_of_drop hb
    obtain ⟨hr, hrs'⟩ := getElem?_of_drop hr
    have hc := hm c List.mem_cons_self
    have hm := fun d hd => hm d (List.mem_cons_of_mem _ hd)
    have hisSome := hrule.isSome c
    rw [← hrule.slack] at hisSome
    rw [List.countP_cons] at hused
    simp only [List.map_cons, List.zipIdx_cons, List.length_cons, List.replicate_succ,
      List.foldlM_cons, Option.bind_eq_bind]
    cases hs : (orient c).slack with
    | some s =>
      rw [hs] at hisSome
      have hinequality : c.isInequality = true := hisSome.symm
      rw [if_pos hinequality] at hused
      rw [expandRow?_some hrule hs hb hr hc hbs (by omega)]
      have ih := ih (rows ++ [(orient c).coefficients ++ (List.replicate extra 0).set used s])
        (bs ++ [(orient c).rhs]) (used + 1) (by simp [hbs]) (by simpa using hbs')
        (by simpa using hrs') hm (by omega)
      simpa [Constraint.withSlacks, hs] using ih
    | none =>
      rw [expandRow?_none hrule hs hb hr hc hbs]
      have ih := ih (rows ++ [(orient c).coefficients ++ List.replicate extra 0])
        (bs ++ [(orient c).rhs]) used (by simp [hbs]) (by simpa using hbs')
        (by simpa using hrs') hm (by omega)
      simpa [Constraint.withSlacks, hs] using ih

theorem expand?_eq (hlen : ∀ c, (orient c).coefficients.length = c.coefficients.length)
    (q : Problem α) : expand? rule q.parts = some (q.equalities orient hlen).parts := by
  have hcount : (q.parts.relations.filter (· != .equal)).length = q.inequalityCount := by
    rw [Problem.parts, Problem.relations, List.filter_map, List.length_map,
      ← List.countP_eq_length_filter]
    rfl
  have hrows : q.parts.constraintCount = q.constraints.length := q.length_rhs
  have hrelations : List.replicate q.parts.constraintCount .equal =
      (q.equalities orient hlen).relations :=
    replicate_eq_relations (hrows.trans (Problem.constraintCount_equalities orient hlen q).symm)
      fun _ hc => Problem.relation_of_mem_equalities orient hlen q hc
  have hused : 0 + q.constraints.countP (·.isInequality) ≤ q.inequalityCount :=
    Nat.le_of_eq (Nat.zero_add _)
  obtain ⟨column, hrun⟩ := foldlM_expandRow? hrule (p := q.parts) q.constraints [] [] 0 rfl rfl
    rfl (fun c hc => q.width_eq c hc) hused
  simp only [List.nil_append, List.length_nil, Nat.add_zero] at hrun
  rw [← Constraint.map_rhs_withSlacks q.inequalityCount 0] at hrun
  have hfold : q.parts.matrix.zipIdx.foldlM (expandRow? rule q.parts)
      (List.replicate q.constraints.length
        (List.replicate (q.parts.variableCount + q.inequalityCount) 0),
        List.replicate q.constraints.length 0, q.parts.variableCount) =
      some ((q.equalities orient hlen).matrix, (q.equalities orient hlen).rhs, column) := hrun
  unfold expand?
  dsimp only
  rw [hcount, hrelations, hrows, hfold]
  exact assert?_parts (q.equalities orient hlen)

end

/-! ### duals -/

/-- the rows turned the way of the target, with their right sides; refused at an equality -/
def prepareRows? (target : Relation) (p : Parts α) :
    List (List α × Nat) → Option (Except (Failure α) (List (List α) × List α))
  | [] => some (.ok ([], []))
  | (row, i) :: rest => do
    let relation ← p.relations[i]?
    if relation == .equal then some (.error (.equalityInDual i))
    else
      let b ← p.rhs[i]?
      let negate := relation != target
      let result ← prepareRows? target p rest
      some (result.map fun (rows, bs) => (row.map (turn negate) :: rows, turn negate b :: bs))

def prepare? (p : Parts α) : Option (Except (Failure α) (Parts α)) := do
  let target := p.sense.rowRelation
  let result ← prepareRows? target p p.matrix.zipIdx
  match result with
  | .error e => some (.error e)
  | .ok (rows, bs) =>
    let q ← assert? ⟨p.objective, p.sense, rows, bs, List.replicate p.constraintCount target⟩
    some (.ok q)

/-- the matrix read column by column -/
def transpose? (p : Parts α) : Option (List (List α)) :=
  (List.range p.variableCount).mapM fun j =>
    (List.range p.constraintCount).mapM fun i => do
      let row ← p.matrix[i]?
      row[j]?

def dual? (p : Parts α) : Option (Except (Failure α) (Parts α)) := do
  let prepared ← p.prepare?
  match prepared with
  | .error e => some (.error e)
  | .ok q =>
    let rows ← q.transpose?
    let sense := q.sense.flipped
    let d ← assert? ⟨q.rhs, sense, rows, q.objective,
      List.replicate q.variableCount sense.rowRelation⟩
    some (.ok d)

theorem coefficients_toward (target : Relation) (c : Constraint α) :
    (c.toward target).coefficients = c.coefficients.map (turn (c.relation != target)) := by
  by_cases h : c.relation = target
  · simp [Constraint.toward, h, map_turn_false]
  · simp [Constraint.toward, h, Constraint.negated, turn]

theorem rhs_toward (target : Relation) (c : Constraint α) :
    (c.toward target).rhs = turn (c.relation != target) c.rhs := by
  by_cases h : c.relation = target
  · simp [Constraint.toward, h, turn]
  · simp [Constraint.toward, h, Constraint.negated, turn]

theorem prepareRows?_eq (target : Relation) {p : Parts α} (cs : List (Constraint α)) :
    ∀ i : Nat, p.rhs.drop i = cs.map (·.rhs) → p.relations.drop i = cs.map (·.relation) →
    prepareRows? target p ((cs.map (·.coefficients)).zipIdx i) = some
      (match cs.findIdx? (·.relation == .equal) with
      | some k => .error (.equalityInDual (i + k))
      | none => .ok ((cs.map (·.toward target)).map (·.coefficients),
          (cs.map (·.toward target)).map (·.rhs))) := by
  induction cs with
  | nil => exact fun _ _ _ => rfl
  | cons c cs ih =>
    intro i hb hr
    obtain ⟨hb, hbs⟩ := getElem?_of_drop hb
    obtain ⟨hr, hrs⟩ := getElem?_of_drop hr
    rw [List.map_cons, List.zipIdx_cons, prepareRows?, List.findIdx?_cons]
    simp only [Option.bind_eq_bind, Option.bind_some, hr, hb, ih (i + 1) hbs hrs]
    by_cases hequal : c.relation = .equal
    · simp [hequal]
    · have hne : (c.relation == .equal) = false := by simpa using hequal
      rw [hne, if_neg Bool.false_ne_true, if_neg Bool.false_ne_true]
      cases cs.findIdx? (·.relation == .equal) with
      | none => simp [Except.map, coefficients_toward, rhs_toward]
      | some k => simp [Except.map, Nat.add_comm, Nat.add_left_comm]

theorem prepare?_eq (q : Problem α) : q.parts.prepare? = some (q.prepared.map Problem.parts) := by
  have hrows : prepareRows? q.sense.rowRelation q.parts q.parts.matrix.zipIdx = _ :=
    prepareRows?_eq q.sense.rowRelation q.constraints 0 rfl rfl
  have hcount : q.parts.constraintCount = q.constraints.length := q.length_rhs
  unfold prepare?
  show (prepareRows? q.sense.rowRelation q.parts q.parts.matrix.zipIdx).bind _ = _
  rw [hrows, Option.bind_some, Problem.prepared, Problem.firstEquality?]
  cases hfirst : q.constraints.findIdx? (·.relation == .equal) with
  | some k =>
    dsimp only
    rw [Nat.zero_add]
    rfl
  | none =>
    have hrelations : List.replicate q.parts.constraintCount q.parts.sense.rowRelation =
        q.turned.relations := by
      refine replicate_eq_relations ?_ fun d hd => ?_
      · rw [hcount]
        exact (List.length_map _).symm
      · obtain ⟨c, hc, rfl⟩ := List.mem_map.1 hd
        have hne : c.relation ≠ .equal := by simpa using List.findIdx?_eq_none_iff.1 hfirst c hc
        exact Constraint.relation_toward hne q.sense
    have hassert := assert?_parts q.turned
    dsimp only
    rw [hrelations]
    show (q.turned.parts.assert?).bind _ = _
    rw [hassert]
    rfl

theorem transpose?_eq (q : Problem α) : q.parts.transpose? = some q.transposed.matrix := by
  have hcount : q.parts.constraintCount = q.parts.matrix.length := by
    show q.rhs.length = q.matrix.length
    rw [Problem.length_rhs, Problem.length_matrix]
  have hcolumn : ∀ j < q.parts.variableCount, (q.parts.matrix.mapM fun row => row[j]?) =
      some (q.constraints.map (·.coefficients.getD j 0)) := by
    intro j hj
    have hread : ∀ row ∈ q.parts.matrix, row[j]? = some (row.getD j 0) := by
      intro row hrow
      have hlt : j < row.length := by rw [q.length_of_mem_matrix hrow]; exact hj
      rw [getD_of_lt hlt, List.getElem?_eq_getElem hlt]
    rw [mapM_eq_some hread]
    exact congrArg some (List.map_map)
  unfold transpose?
  rw [hcount]
  simp only [Option.bind_eq_bind, mapM_range_length]
  rw [mapM_eq_some fun j hj => hcolumn j (List.mem_range.1 hj)]
  refine congrArg some (List.ext_getElem ?_ fun j _ _ => ?_)
  · rw [List.length_map, List.length_range, Problem.length_matrix,
      Problem.constraintCount_transposed]
    rfl
  · simp [Problem.matrix, Problem.transposed]

theorem dual?_eq (q : Problem α) : q.parts.dual? = some (q.dual.map Problem.parts) := by
  unfold dual?
  rw [prepare?_eq, Problem.dual]
  cases q.prepared with
  | error e => rfl
  | ok r =>
    have hrelations : List.replicate r.parts.variableCount r.parts.sense.flipped.rowRelation =
        r.transposed.relations := by
      refine replicate_eq_relations r.constraintCount_transposed.symm fun d hd => ?_
      obtain ⟨j, hj, rfl⟩ := List.mem_mapIdx.1 hd
      rfl
    have hrhs : r.parts.objective = r.transposed.rhs := by
      refine List.ext_getElem ?_ fun j _ _ => ?_
      · rw [Problem.length_rhs, Problem.constraintCount_transposed]
        rfl
      · simp [Problem.rhs, Problem.transposed, Problem.parts]
    have hassert := assert?_parts r.transposed
    show (r.parts.transpose?.bind fun rows => _) = _
    rw [transpose?_eq, Option.bind_some]
    dsimp only
    rw [hrelations, hrhs]
    show (r.transposed.parts.assert?).bind _ = _
    rw [hassert]
    rfl

/-! ### chains -/

def perform? (p : Parts α) : Reformulation → Option (Except (Failure α) (Parts α))
  | .standard => (p.expand? nonnegRule).map .ok
  | .dualStandard => (p.expand? lessEqualRule).map .ok
  | .prepare => p.prepare?
  | .dual => p.dual?

theorem perform?_eq (q : Problem α) (r : Reformulation) :
    q.parts.perform? r = some ((r.apply q).map (·.1.parts)) := by
  cases r with
  | standard =>
    rw [perform?, expand?_eq turns_nonnegRule Constraint.length_withNonnegRhs]
    rfl
  | dualStandard =>
    rw [perform?, expand?_eq turns_lessEqualRule Constraint.length_asLessEqual]
    rfl
  | prepare =>
    rw [perform?, prepare?_eq, Reformulation.apply]
    cases q.prepared <;> rfl
  | dual =>
    rw [perform?, dual?_eq, Reformulation.apply]
    cases q.dual <;> rfl

/-- one reformulation after the other -/
def reformulate? (p : Parts α) : List Reformulation → Option (Except (Failure α) (Parts α))
  | [] => some (.ok p)
  | r :: rs => do
    let result ← p.perform? r
    match result with
    | .error e => some (.error e)
    | .ok q => q.reformulate? rs

end Parts

/-- one reformulation after the other -/
def Problem.reformulate {α : Type} [Scalar α] (p : Problem α) :
    List Reformulation → Except (Failure α) (Problem α)
  | [] => .ok p
  | r :: rs =>
    match r.apply p with
    | .error e => .error e
    | .ok (q, _) => q.reformulate rs

namespace Parts

theorem reformulate?_eq {α : Type} [Scalar α] (rs : List Reformulation) (q : Problem α) :
    q.parts.reformulate? rs = some ((q.reformulate rs).map Problem.parts) := by
  induction rs generalizing q with
  | nil => rfl
  | cons r rs ih =>
    rw [reformulate?, perform?_eq, Problem.reformulate]
    cases r.apply q with
    | error e => rfl
    | ok result => exact ih result.1

end Parts

end LinearProgram
