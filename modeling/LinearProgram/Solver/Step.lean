import LinearProgram.Text.Naming

/-!
# Steps of a solve

A solve passes through its steps in order and never goes back.
-/

namespace LinearProgram

inductive Step where
  | init
  | transform
  | buildTableau
  | iteration
  | complete
  deriving DecidableEq

namespace Step

def name : Step → String
  | init => "Init"
  | transform => "Transform"
  | buildTableau => "BuildTableau"
  | iteration => "Iteration"
  | complete => "Complete"

def all : List Step := [init, transform, buildTableau, iteration, complete]

def ofName? (text : String) : Option Step := all.find? (·.name == text)

def description : Step → String
  | init => "Waiting to start."
  | transform => "Transforming task to standard form."
  | buildTableau => "Building initial simplex tableau."
  | iteration => "Performing simplex iteration."
  | complete => "Solution is complete."

/-- the place of a step in a solve -/
def rank : Step → Nat
  | init => 0
  | transform => 1
  | buildTableau => 2
  | iteration => 3
  | complete => 4

theorem mem_all (s : Step) : s ∈ all := by cases s <;> decide

theorem name_inj {s s' : Step} (h : s.name = s'.name) : s = s' := eq_of_name_eq (by decide) mem_all h

end Step

end LinearProgram
