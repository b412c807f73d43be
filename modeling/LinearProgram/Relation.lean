import LinearProgram.Text.Naming

/-!
# Relations

The relation between the left side of a constraint and its right side: `<=`, `>=` or `=`.

* `Relation.ofSymbol?_eq_some_iff`   a symbol reads as its relation, and nothing else does;
* `Relation.flipped_flipped`         multiplying a row by `-1` twice restores its relation.
-/

namespace LinearProgram

inductive Relation where
  | lessEqual
  | greaterEqual
  | equal
  deriving DecidableEq

namespace Relation

def symbol : Relation → String
  | lessEqual => "<="
  | greaterEqual => ">="
  | equal => "="

def name : Relation → String
  | lessEqual => "LessEqual"
  | greaterEqual => "GreaterEqual"
  | equal => "Equal"

def all : List Relation := [lessEqual, greaterEqual, equal]

def ofSymbol? (text : String) : Option Relation := all.find? (·.symbol == text)

def ofName? (text : String) : Option Relation := all.find? (·.name == text)

/-- the refusal of a text that is no relation -/
def unknown (text : String) : String := "unknown relation '" ++ text ++ "'"

/-- the relation of a row after both of its sides are negated -/
def flipped : Relation → Relation
  | lessEqual => greaterEqual
  | greaterEqual => lessEqual
  | equal => equal

@[simp] theorem flipped_flipped (r : Relation) : r.flipped.flipped = r := by cases r <;> rfl

theorem mem_all (r : Relation) : r ∈ all := by cases r <;> decide

theorem ofSymbol?_eq_some_iff {text : List Char} {r : Relation} :
    ofSymbol? (String.ofList text) = some r ↔ text = r.symbol.toList :=
  find?_name_ofList_eq_some_iff (by decide) mem_all

theorem ofName?_eq_some_iff {text : String} {r : Relation} :
    ofName? text = some r ↔ text = r.name := find?_name_eq_some_iff (by decide) mem_all

end Relation

end LinearProgram
