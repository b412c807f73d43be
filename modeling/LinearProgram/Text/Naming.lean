/-!
# Values by their names

The values of an enumeration are listed with no name twice, so that a search by name finds the value
that has the name and no other.

* `find?_name_eq_some_iff`   what is found by a name;
* `eq_of_name_eq`            a name is that of one value.
-/

namespace LinearProgram

section
variable {α : Type} {name : α → String} {all : List α} (hnodup : (all.map name).Nodup)
include hnodup

theorem find?_name {a : α} (ha : a ∈ all) : all.find? (name · == name a) = some a := by
  induction all with
  | nil => exact absurd ha List.not_mem_nil
  | cons first rest ih =>
    obtain ⟨hnew, hnodup⟩ := List.nodup_cons.1 hnodup
    rcases List.mem_cons.1 ha with rfl | ha
    · exact List.find?_cons_of_pos (beq_self_eq_true _)
    · have hother : (name first == name a) = false := by
        refine beq_eq_false_iff_ne.2 fun heq => ?_
        rw [heq] at hnew
        exact hnew (List.mem_map_of_mem ha)
      rw [List.find?_cons, hother]
      exact ih hnodup ha

/-- The value that is found by a text is the one with that name. -/
theorem find?_name_eq_some_iff (hall : ∀ a, a ∈ all) {text : String} {a : α} :
    all.find? (name · == text) = some a ↔ text = name a := by
  constructor
  · intro h
    have hfound := List.find?_some h
    exact (eq_of_beq hfound).symm
  · rintro rfl
    exact find?_name hnodup (hall a)

/-- and so for a text that is given by its characters -/
theorem find?_name_ofList_eq_some_iff (hall : ∀ a, a ∈ all) {text : List Char} {a : α} :
    all.find? (name · == String.ofList text) = some a ↔ text = (name a).toList := by
  rw [find?_name_eq_some_iff hnodup hall, ← String.toList_inj, String.toList_ofList]

theorem eq_of_name_eq (hall : ∀ a, a ∈ all) {a b : α} (h : name a = name b) : a = b := by
  have hfound := (find?_name_eq_some_iff hnodup hall).2 h
  rw [find?_name hnodup (hall a)] at hfound
  exact Option.some.inj hfound

end

end LinearProgram
