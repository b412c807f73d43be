import LinearProgram.Text.Naming

/-!
# Senses

The direction in which the objective is to be driven.
-/

namespace LinearProgram

inductive Sense where
  | maximize
  | minimize
  deriving DecidableEq

namespace Sense

def symbol : Sense → String
  | maximize => "max"
  | minimize => "min"

def name : Sense → String
  | maximize => "Maximize"
  | minimize => "Minimize"

def all : List Sense := [maximize, minimize]

def ofSymbol? (text : String) : Option Sense := all.find? (·.symbol == text)

def ofName? (text : String) : Option Sense := all.find? (·.name == text)

/-- the refusal of a text that is no sense -/
def unknown (text : String) : String := "unknown objective type '" ++ text ++ "'"

def flipped : Sense → Sense
  | maximize => minimize
  | minimize => maximize

@[simp] theorem flipped_flipped (s : Sense) : s.flipped.flipped = s := by cases s <;> rfl

theorem mem_all (s : Sense) : s ∈ all := by cases s <;> decide

theorem symbol_inj {s s' : Sense} (h : s.symbol = s'.symbol) : s = s' :=
  eq_of_name_eq (by decide) mem_all h

theorem ofSymbol?_eq_some_iff {text : List Char} {s : Sense} :
    ofSymbol? (String.ofList text) = some s ↔ text = s.symbol.toList :=
  find?_name_ofList_eq_some_iff (by decide) mem_all

theorem ofName?_eq_some_iff {text : String} {s : Sense} :
    ofName? text = some s ↔ text = s.name := find?_name_eq_some_iff (by decide) mem_all

end Sense

end LinearProgram
