/-!
# Pieces of a text

* `pieces`   the text between separators, empty pieces included;
* `words`    the longest runs without a separator;
* `padLeft`, `padRight`   a text brought up to a width, and never cut.
-/

namespace LinearProgram

/-- The text between the separators: one piece more than there are separators. -/
def pieces (separates : Char → Bool) : List Char → List (List Char)
  | [] => [[]]
  | c :: text =>
    if separates c then [] :: pieces separates text
    else
      match pieces separates text with
      | [] => [[c]]
      | piece :: rest => (c :: piece) :: rest

def words (separates : Char → Bool) (text : List Char) : List (List Char) :=
  (pieces separates text).filter (! ·.isEmpty)

theorem pieces_ne_nil (separates : Char → Bool) (text : List Char) :
    pieces separates text ≠ [] := by
  cases text with
  | nil => exact List.cons_ne_nil _ _
  | cons c text =>
    rw [pieces]
    split
    · exact List.cons_ne_nil _ _
    · split <;> exact List.cons_ne_nil _ _

theorem pieces_eq_singleton {separates : Char → Bool} {text : List Char}
    (h : ∀ c ∈ text, separates c = false) : pieces separates text = [text] := by
  induction text with
  | nil => rfl
  | cons c text ih =>
    rw [pieces, ih fun d hd => h d (List.mem_cons_of_mem _ hd), h c List.mem_cons_self]
    rfl

/-- a separator between two texts separates their pieces -/
theorem pieces_append_cons {separates : Char → Bool} {c : Char} (hc : separates c = true)
    (a b : List Char) :
    pieces separates (a ++ c :: b) = pieces separates a ++ pieces separates b := by
  induction a with
  | nil => simp [pieces, hc]
  | cons d a ih =>
    rw [List.cons_append, pieces, pieces, ih]
    by_cases hd : separates d = true
    · simp [hd]
    · cases hp : pieces separates a with
      | nil => exact absurd hp (pieces_ne_nil _ _)
      | cons piece rest => simp [hd]

/-- aligned to the right -/
def padLeft (width : Nat) (text : List Char) : List Char :=
  List.replicate (width - text.length) ' ' ++ text

/-- aligned to the left -/
def padRight (width : Nat) (text : List Char) : List Char :=
  text ++ List.replicate (width - text.length) ' '

theorem length_padLeft (width : Nat) (text : List Char) :
    (padLeft width text).length = max width text.length := by
  simp [padLeft]; omega

theorem length_padRight (width : Nat) (text : List Char) :
    (padRight width text).length = max width text.length := by
  simp [padRight]; omega

end LinearProgram
