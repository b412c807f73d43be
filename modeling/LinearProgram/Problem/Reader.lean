import LinearProgram.Decimal.Numeral
import LinearProgram.Problem
import LinearProgram.Text.Blank
import LinearProgram.Text.Piece

/-!
# Reading problems

Lines that are blank or start with `#` mean nothing.  The last line that means something is the
objective and fixes the number of variables, the ones before it are the constraints.  The words
of a line are set apart by spaces and tabs.

* `Problem.read`        the problem that a text spells, or what is wrong with the text;
* `ReadError.message`   its wording.

Of several faults the first is reported in this order: those of the whole text, those of the
objective (its sense before its numbers), then those of the constraints from the top, each from
left to right.
-/

namespace LinearProgram

inductive ReadError where
  | tokenCount (line expected found : Nat)
  | invalidNumber (line : Nat) (text : String)
  | unknownRelation (line : Nat) (text : String)
  | unknownSense (line : Nat) (text : String)
  | missingObjective
  | noConstraints
  | emptyObjective
  deriving DecidableEq

def ReadError.message : ReadError → String
  | tokenCount line expected found => s!"Line {line}: expected {expected} tokens, found {found}"
  | invalidNumber line text => s!"Line {line}: invalid number '" ++ text ++ "'"
  | unknownRelation line text =>
    s!"Line {line}: unknown relation '" ++ text ++ "' (expected <=, >= or =)"
  | unknownSense line text =>
    s!"Line {line}: unknown objective type '" ++ text ++ "' (expected max or min)"
  | missingObjective => "Missing objective line"
  | noConstraints => "No constraints given"
  | emptyObjective => "Objective has no coefficients"

/-- a line that means something, with its number in the text -/
structure Line where
  number : Nat
  words : List (List Char)
  deriving DecidableEq

namespace Line

/-- the meaning of a line, if it has one -/
def ofText? (number : Nat) (text : List Char) : Option Line :=
  let text := trim text
  if text.isEmpty || text.head? == some '#' then none
  else some ⟨number, LinearProgram.words (fun c => c == ' ' || c == '\t') text⟩

/-- the lines of a text that mean something -/
def ofSource (source : List Char) : List Line :=
  (pieces (· == '\n') source).zipIdx.filterMap fun (text, i) => ofText? (i + 1) text

/-! ### words -/

def readNumber (number : Nat) (word : List Char) : Except ReadError Float :=
  match readNumber? word with
  | some x => .ok x
  | none => .error (.invalidNumber number (String.ofList word))

def readNumbers (number : Nat) : List (List Char) → Except ReadError (List Float)
  | [] => .ok []
  | word :: rest =>
    match readNumber number word with
    | .error e => .error e
    | .ok x =>
      match readNumbers number rest with
      | .error e => .error e
      | .ok xs => .ok (x :: xs)

theorem length_of_readNumbers {number : Nat} {words : List (List Char)} {xs : List Float}
    (h : readNumbers number words = .ok xs) : xs.length = words.length := by
  induction words generalizing xs with
  | nil => cases h; rfl
  | cons word rest ih =>
    rw [readNumbers] at h
    split at h
    · exact nomatch h
    split at h
    · exact nomatch h
    · next xs hxs =>
      cases h
      rw [List.length_cons, List.length_cons, ih hxs]

/-! ### lines -/

/-- `c1 ... cm max|min` -/
def readObjective (l : Line) : Except ReadError (List Float × Sense) :=
  match l.words.getLast? with
  | none => .error .missingObjective
  | some word =>
    if l.words.dropLast.isEmpty then .error .emptyObjective
    else
      match Sense.ofSymbol? (String.ofList word) with
      | none => .error (.unknownSense l.number (String.ofList word))
      | some sense =>
        match readNumbers l.number l.words.dropLast with
        | .error e => .error e
        | .ok objective => .ok (objective, sense)

/-- `a1 ... am REL b` for `m` variables -/
def readConstraint (m : Nat) (l : Line) : Except ReadError (Constraint Float) :=
  match l.words.drop m with
  | [relation, rhs] =>
    match readNumbers l.number (l.words.take m) with
    | .error e => .error e
    | .ok coefficients =>
      match Relation.ofSymbol? (String.ofList relation) with
      | none => .error (.unknownRelation l.number (String.ofList relation))
      | some relation =>
        match readNumber l.number rhs with
        | .error e => .error e
        | .ok rhs => .ok ⟨coefficients, relation, rhs⟩
  | _ => .error (.tokenCount l.number (m + 2) l.words.length)

def readConstraints (m : Nat) : List Line → Except ReadError (List (Constraint Float))
  | [] => .ok []
  | l :: rest =>
    match readConstraint m l with
    | .error e => .error e
    | .ok c =>
      match readConstraints m rest with
      | .error e => .error e
      | .ok cs => .ok (c :: cs)

theorem length_of_readConstraint {m : Nat} {l : Line} {c : Constraint Float}
    (h : readConstraint m l = .ok c) : c.coefficients.length = m := by
  rw [readConstraint] at h
  split at h
  · next relation rhs hdrop =>
    split at h
    · exact nomatch h
    next coefficients hcoefficients =>
    split at h
    · exact nomatch h
    split at h
    · exact nomatch h
    · cases h
      have hlen := congrArg List.length hdrop
      rw [List.length_drop, List.length_cons, List.length_singleton] at hlen
      rw [length_of_readNumbers hcoefficients, List.length_take]
      omega
  · exact nomatch h

theorem length_of_readConstraints {m : Nat} {ls : List Line} {cs : List (Constraint Float)}
    (h : readConstraints m ls = .ok cs) : ∀ c ∈ cs, c.coefficients.length = m := by
  induction ls generalizing cs with
  | nil => cases h; exact fun c hc => absurd hc List.not_mem_nil
  | cons l rest ih =>
    rw [readConstraints] at h
    split at h
    · exact nomatch h
    next c hread =>
    split at h
    · exact nomatch h
    next cs hrest =>
    cases h
    intro d hd
    rcases List.mem_cons.1 hd with rfl | hd
    · exact length_of_readConstraint hread
    · exact ih hrest d hd

end Line

namespace Problem

def ofLines (constraints : List Line) (objective : Line) : Except ReadError (Problem Float) :=
  match objective.readObjective with
  | .error e => .error e
  | .ok (objective, sense) =>
    match h : Line.readConstraints objective.length constraints with
    | .error e => .error e
    | .ok constraints => .ok ⟨objective, sense, constraints, Line.length_of_readConstraints h⟩

def readChars (source : List Char) : Except ReadError (Problem Float) :=
  let lines := Line.ofSource source
  match lines.getLast? with
  | none => .error .missingObjective
  | some objective =>
    if lines.dropLast.isEmpty then .error .noConstraints
    else ofLines lines.dropLast objective

def read (source : String) : Except ReadError (Problem Float) := readChars source.toList

end Problem

end LinearProgram
