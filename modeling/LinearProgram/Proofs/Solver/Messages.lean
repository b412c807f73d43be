import Mathlib
import LinearProgram.Failure
import LinearProgram.Proofs.Text.Delimited

/-!
# What the message of a failure tells

Messages open with different words, none of which is the start of another, but for the two that
name a constraint.  What follows tells the failure, as long as numbers are written differently.

* `Failure.Opening`       the words that messages open with;
* `Failure.message_inj`   failures with one message are equal.
-/

namespace LinearProgram

namespace Dimension

def all : List Dimension :=
  [constraintRows, relations, constraintColumns, tableauColumns, basis, basisColumn]

theorem mem_all (d : Dimension) : d ∈ all := by cases d <;> decide

/-- One length starts with the name of another one, so the colon has to be looked at. -/
theorem eq_of_text_append {d d' : Dimension} {x y : String}
    (h : d.text ++ (": expected " ++ x) = d'.text ++ (": expected " ++ y)) : d = d' ∧ x = y := by
  rw [← String.append_assoc, ← String.append_assoc] at h
  exact LinearProgram.eq_of_text_append (fun d => d.text ++ ": expected ") mem_all
    (by decide +kernel) h

end Dimension

namespace Failure

variable {α : Type} {number : α → String} {f g : Failure α}

/-- what a message says before its first number or length -/
inductive Opening where
  | dimension
  | constraint
  | basis
  | start
  | unbounded
  | infeasible
  | limit
  deriving DecidableEq

namespace Opening

def text : Opening → String
  | dimension => "Dimension mismatch in "
  | constraint => "Constraint "
  | basis => "No initial basis: found "
  | start => "There is no starting solution: objective coefficient "
  | unbounded => "The problem is unbounded: column "
  | infeasible => "The problem is infeasible: row "
  | limit => "Iteration limit of "

def all : List Opening := [dimension, constraint, basis, start, unbounded, infeasible, limit]

theorem mem_all (o : Opening) : o ∈ all := by cases o <;> decide

end Opening

def opening : Failure α → Opening
  | dimensionMismatch .. => .dimension
  | equalityInDual _ => .constraint
  | notStandardForm _ => .constraint
  | noInitialBasis .. => .basis
  | noStartingSolution .. => .start
  | unbounded _ => .unbounded
  | infeasible _ => .infeasible
  | iterationLimit _ => .limit

/-- the message after its opening -/
def details (number : α → String) : Failure α → String
  | dimensionMismatch what expected found =>
    what.text ++ (": expected " ++ (toString expected ++ (", found " ++ toString found)))
  | equalityInDual row =>
    toString row ++ (" is " ++ "an equality, which the dual form does not accept")
  | notStandardForm row =>
    toString row ++ (" is " ++ "not an equality; convert the task to standard form first")
  | noInitialBasis found needed =>
    toString found ++ (" unit columns for " ++ (toString needed ++ " constraints"))
  | noStartingSolution column value => toString column ++ (" is " ++ number value)
  | unbounded column => toString column ++ " has no positive entry"
  | infeasible row => toString row ++ " has no eligible entering column"
  | iterationLimit limit => toString limit ++ " reached without an optimal tableau"

theorem message_eq (f : Failure α) : f.message number = f.opening.text ++ f.details number := by
  cases f with
  | dimensionMismatch what expected found =>
    show "Dimension mismatch in " ++ what.text ++ ": expected " ++ toString expected ++
      ", found " ++ toString found = _
    simp only [String.append_assoc]
    rfl
  | equalityInDual row =>
    show "Constraint " ++ toString row ++
      (" is " ++ "an equality, which the dual form does not accept") = _
    rw [String.append_assoc]
    rfl
  | notStandardForm row =>
    show "Constraint " ++ toString row ++
      (" is " ++ "not an equality; convert the task to standard form first") = _
    rw [String.append_assoc]
    rfl
  | noInitialBasis found needed =>
    show "No initial basis: found " ++ toString found ++ " unit columns for " ++ toString needed ++
      " constraints" = _
    simp only [String.append_assoc]
    rfl
  | noStartingSolution column value =>
    show "There is no starting solution: objective coefficient " ++ toString column ++ " is " ++
      number value = _
    simp only [String.append_assoc]
    rfl
  | unbounded column => exact String.append_assoc ..
  | infeasible row => exact String.append_assoc ..
  | iterationLimit limit => exact String.append_assoc ..

/-- Failures with one message are equal, if no two numbers are written alike. -/
theorem message_inj (hnumber : Function.Injective number)
    (h : f.message number = g.message number) : f = g := by
  rw [message_eq, message_eq] at h
  obtain ⟨hopening, hdetails⟩ :=
    eq_of_text_append Opening.text Opening.mem_all (by decide +kernel) h
  cases f with
  | dimensionMismatch what expected found =>
    cases g with
    | dimensionMismatch =>
      obtain ⟨rfl, hnumbers⟩ := Dimension.eq_of_text_append hdetails
      obtain ⟨rfl, hfound⟩ := toString_append_inj ", found " rfl rfl hnumbers
      rw [Nat.repr_injective hfound]
    | _ => cases hopening
  | equalityInDual row =>
    cases g with
    | equalityInDual =>
      obtain ⟨rfl, -⟩ := toString_append_inj " is " rfl rfl hdetails
      rfl
    | notStandardForm =>
      exact absurd (toString_append_inj " is " rfl rfl hdetails).2 (by decide)
    | _ => cases hopening
  | notStandardForm row =>
    cases g with
    | notStandardForm =>
      obtain ⟨rfl, -⟩ := toString_append_inj " is " rfl rfl hdetails
      rfl
    | equalityInDual =>
      exact absurd (toString_append_inj " is " rfl rfl hdetails).2 (by decide)
    | _ => cases hopening
  | noInitialBasis found needed =>
    cases g with
    | noInitialBasis =>
      obtain ⟨rfl, hneeded⟩ := toString_append_inj " unit columns for " rfl rfl hdetails
      rw [Nat.repr_injective ((String.append_left_inj _).1 hneeded)]
    | _ => cases hopening
  | noStartingSolution column value =>
    cases g with
    | noStartingSolution =>
      obtain ⟨rfl, hvalue⟩ := toString_append_inj " is " rfl rfl hdetails
      rw [hnumber hvalue]
    | _ => cases hopening
  | unbounded column =>
    cases g with
    | unbounded => rw [Nat.repr_injective ((String.append_left_inj _).1 hdetails)]
    | _ => cases hopening
  | infeasible row =>
    cases g with
    | infeasible => rw [Nat.repr_injective ((String.append_left_inj _).1 hdetails)]
    | _ => cases hopening
  | iterationLimit limit =>
    cases g with
    | iterationLimit => rw [Nat.repr_injective ((String.append_left_inj _).1 hdetails)]
    | _ => cases hopening

end Failure

end LinearProgram
