import Mathlib.Data.List.GetD

/-!
# Checked access

Reading and writing in lists where an index outside of the list, a slice longer than the list or a
copy between lengths that differ has no result.  Each operation comes with what it gives where it
is defined.

* `put?`, `front?`, `copyFront?`   one entry written, the first entries read or overwritten;
* `writeFrom?`     entries written one after the other;
* `updateUpTo?`    entries replaced one after the other;
* `mapM_eq_some`, `foldlM_eq_some`   a loop whose rounds are all defined.
-/

namespace LinearProgram.Checked

variable {β γ : Type}

/-- one less, undefined at zero -/
def pred? : Nat → Option Nat
  | 0 => none
  | n + 1 => some n

/-- the list with an entry written -/
def put? (l : List β) (i : Nat) (b : β) : Option (List β) :=
  if i < l.length then some (l.set i b) else none

/-- the first `n` entries -/
def front? (l : List β) (n : Nat) : Option (List β) :=
  if n ≤ l.length then some (l.take n) else none

/-- the first `n` entries overwritten by exactly as many values -/
def copyFront? (l : List β) (n : Nat) (values : List β) : Option (List β) := do
  let front ← front? l n
  if front.length = values.length then some (values ++ l.drop n) else none

/-- values written one by one from index `k` on -/
def writeFrom? (k : Nat) (l : List β) : List β → Option (List β)
  | [] => some l
  | value :: values => do
    let l ← put? l k value
    writeFrom? (k + 1) l values

/-- the entries below `n` replaced one by one, by what becomes of them -/
def updateUpTo? (f : Nat → β → Option β) (l : List β) : Nat → Option (List β)
  | 0 => some l
  | n + 1 => do
    let l ← updateUpTo? f l n
    let old ← l[n]?
    let new ← f n old
    put? l n new

/-! ### one entry -/

theorem put?_eq {l : List β} {i : Nat} (h : i < l.length) (b : β) :
    put? l i b = some (l.set i b) := if_pos h

theorem put?_append (done : List β) (old new : β) (rest : List β) :
    put? (done ++ old :: rest) done.length new = some (done ++ new :: rest) := by
  rw [put?_eq (by simp), List.set_append_right _ _ (Nat.le_refl _), Nat.sub_self]
  rfl

theorem getElem?_append_cons (done : List β) (b : β) (rest : List β) :
    (done ++ b :: rest)[done.length]? = some b := by
  rw [List.getElem?_append_right (Nat.le_refl _), Nat.sub_self]
  rfl

theorem getElem?_of_drop {l : List β} {i : Nat} {b : β} {rest : List β}
    (h : l.drop i = b :: rest) : l[i]? = some b ∧ l.drop (i + 1) = rest := by
  refine ⟨?_, ?_⟩
  · have hzero : (l.drop i)[0]? = some b := by rw [h]; rfl
    rwa [List.getElem?_drop, Nat.add_zero] at hzero
  · rw [← List.drop_drop, h]
    rfl

/-! ### many entries -/

theorem front?_eq {l : List β} {n : Nat} (h : n ≤ l.length) : front? l n = some (l.take n) :=
  if_pos h

theorem copyFront?_append {old values : List β} (h : old.length = values.length)
    (rest : List β) : copyFront? (old ++ rest) values.length values = some (values ++ rest) := by
  rw [copyFront?, ← h, front?_eq (by simp)]
  simp [h]

theorem writeFrom?_append (done : List β) {old values : List β}
    (h : old.length = values.length) (rest : List β) :
    writeFrom? done.length (done ++ (old ++ rest)) values = some (done ++ (values ++ rest)) := by
  induction values generalizing done old with
  | nil =>
    rw [List.eq_nil_of_length_eq_zero h]
    rfl
  | cons value values ih =>
    obtain ⟨b, old, rfl⟩ := List.exists_cons_of_length_eq_add_one h
    have ih := ih (done ++ [value]) (Nat.succ.inj h)
    rw [List.length_append] at ih
    simp only [writeFrom?, List.cons_append, put?_append]
    simpa using ih

theorem updateUpTo?_eq {f : Nat → β → Option β} {g : Nat → β → β} {l : List β}
    (h : ∀ j (hj : j < l.length), f j l[j] = some (g j l[j])) {n : Nat} (hn : n ≤ l.length) :
    updateUpTo? f l n = some ((l.take n).mapIdx g ++ l.drop n) := by
  induction n with
  | zero => rfl
  | succ n ih =>
    have hlt : n < l.length := hn
    have hdrop : l.drop n = l[n] :: l.drop (n + 1) := List.drop_eq_getElem_cons hlt
    have htake : l.take (n + 1) = l.take n ++ [l[n]] := List.take_succ_eq_append_getElem hlt
    have hlen : ((l.take n).mapIdx g).length = n := by simp; omega
    have hget := getElem?_append_cons ((l.take n).mapIdx g) l[n] (l.drop (n + 1))
    have hput := put?_append ((l.take n).mapIdx g) l[n] (g n l[n]) (l.drop (n + 1))
    rw [hlen] at hget hput
    rw [updateUpTo?, ih (Nat.le_of_lt hlt), hdrop]
    simp only [Option.bind_eq_bind, Option.bind_some, hget, h n hlt, hput]
    rw [htake, List.mapIdx_concat, List.append_assoc, List.length_take_of_le (Nat.le_of_lt hlt)]
    rfl

theorem updateUpTo?_length {f : Nat → β → Option β} {g : Nat → β → β} {l : List β}
    (h : ∀ j (hj : j < l.length), f j l[j] = some (g j l[j])) :
    updateUpTo? f l l.length = some (l.mapIdx g) := by
  rw [updateUpTo?_eq h (Nat.le_refl _), List.take_length, List.drop_length, List.append_nil]

/-- every entry replaced without regard to its index -/
theorem updateUpTo?_map (g : β → β) (l : List β) :
    updateUpTo? (fun _ b => some (g b)) l l.length = some (l.map g) := by
  rw [updateUpTo?_length (fun _ _ => rfl)]
  exact congrArg some (List.ext_getElem (by simp) fun _ _ _ => by simp)

/-- every entry combined with that of another list at the same index -/
theorem updateUpTo?_zipWith (op : β → γ → β) {l : List β} {other : List γ}
    (h : l.length = other.length) :
    updateUpTo? (fun j b => other[j]?.map (op b)) l l.length =
      some (List.zipWith op l other) := by
  rw [updateUpTo?_length (g := fun j b => (other[j]?.map (op b)).getD b)]
  · refine congrArg some (List.ext_getElem (by simp [h]) fun j hj _ => ?_)
    have hj : j < other.length := by rw [← h]; simpa using hj
    simp [hj]
  · intro j hj
    simp [show j < other.length by omega]

/-! ### loops -/

theorem mapM_eq_some {f : β → Option γ} {g : β → γ} {l : List β}
    (h : ∀ b ∈ l, f b = some (g b)) : l.mapM f = some (l.map g) := by
  induction l with
  | nil => rfl
  | cons b l ih =>
    rw [List.mapM_cons, h b List.mem_cons_self, ih fun c hc => h c (List.mem_cons_of_mem _ hc)]
    rfl

/-- a loop with a state, each round defined by what the rounds before have kept -/
theorem foldlM_eq_some {f : γ → β → Option γ} {g : γ → β → γ} {kept : γ → Prop} {l : List β}
    (h : ∀ c, kept c → ∀ b ∈ l, f c b = some (g c b) ∧ kept (g c b)) {c : γ} (hc : kept c) :
    l.foldlM f c = some (l.foldl g c) := by
  induction l generalizing c with
  | nil => rfl
  | cons b l ih =>
    obtain ⟨hround, hnext⟩ := h c hc b List.mem_cons_self
    rw [List.foldlM_cons, hround]
    exact ih (fun c hc a ha => h c hc a (List.mem_cons_of_mem _ ha)) hnext

/-- a loop over the indices of a list is one over its entries -/
theorem mapM_range_length (l : List β) (f : β → Option γ) :
    (List.range l.length).mapM (fun i => l[i]?.bind f) = l.mapM f := by
  have hentries : (List.range l.length).map (l[·]?) = l.map some :=
    List.ext_getElem (by simp) fun i hi _ => by
      have hi : i < l.length := by simpa using hi
      simp [hi]
  have hloop := List.mapM_map (m := Option) (f := (l[·]?)) (g := (·.bind f))
    (l := List.range l.length)
  rw [hentries, List.mapM_map] at hloop
  exact hloop.symm

end LinearProgram.Checked
