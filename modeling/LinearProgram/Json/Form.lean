import LinearProgram.Decimal.Layout
import LinearProgram.Json.Reader
import LinearProgram.Solver

/-!
# JSON forms

The JSON forms of relations, senses, steps, problems, tableaux and solutions, and of what a solve
produces at a step.

A record is an object with its fields, among which unknown ones are skipped, or an array of
exactly its fields in order.  A name is a string, or an object that maps it to `null`.  What is
read is refused when it has the wrong form, and also when its dimensions disagree.  The forms are
the same however doubles are written as numbers and numbers are read as doubles.

* `NumberFormat`        a way to write doubles and to read numbers;
* `JsonForm.readWith`   a document as a value of a type;
* `JsonForm.readAs`, `JsonForm.toJson`   with the shortest digits, read to the nearest double.
-/

namespace LinearProgram

/-- why a document is no value of the wanted type -/
inductive JsonError where
  | malformed
  /-- well formed, but the dimensions of its parts disagree -/
  | inconsistent (failure : Failure Float)

/-- the number that is written for a finite double, and the double that a number is read as, if it
is read as any -/
structure NumberFormat where
  write : Float → Numeral
  read? : Numeral → Option Float

/-- the shortest digits that determine a double, read to the nearest double -/
def NumberFormat.shortest : NumberFormat := ⟨Layout.exchange.numeral, Numeral.double?⟩

namespace Json

/-! ### parts -/

/-- a finite double as a number, `null` for all others -/
def ofDouble (f : NumberFormat) (x : Float) : Json :=
  if Double.isFinite x then number (f.write x) else null

def names (text : String) : Json := string text.toList

def doubles (f : NumberFormat) (xs : List Float) : Json := array (xs.map (ofDouble f))

def grid (f : NumberFormat) (rows : List (List Float)) : Json := array (rows.map (doubles f))

def count (n : Nat) : Json := number ⟨false, digitChars n, [], none⟩

def record (fields : List (String × Json)) : Json :=
  object (fields.map fun (name, value) => (name.toList, value))

def asDouble? (f : NumberFormat) : Json → Option Float
  | number n => f.read? n
  | _ => none

def asList? {α : Type} (item? : Json → Option α) : Json → Option (List α)
  | array items => items.mapM item?
  | _ => none

/-- a name out of an enumeration -/
def asName? : Json → Option String
  | string text => some (String.ofList text)
  | object [(name, null)] => some (String.ofList name)
  | _ => none

/-- the values of the fields of a record, in the order of their names -/
def asRecord? (names : List String) : Json → Option (List Json)
  | array items => if items.length = names.length then some items else none
  | object fields =>
    names.mapM fun name =>
      match fields.filter (·.1 == name.toList) with
      | [(_, value)] => some value
      | _ => none
  | _ => none

end Json

/-- a type whose values have a form in JSON -/
class JsonForm (α : Type) where
  write : NumberFormat → α → Json
  read : NumberFormat → Json → Except JsonError α

namespace JsonForm

open Json

/-- a form that is refused only as malformed -/
def plain {α : Type} (read? : Json → Option α) (v : Json) : Except JsonError α :=
  match read? v with
  | some a => .ok a
  | none => .error .malformed

/-- a value whose parts have been read and must agree -/
def checked {α : Type} : Option (Except (Failure Float) α) → Except JsonError α
  | none => .error .malformed
  | some (.error failure) => .error (.inconsistent failure)
  | some (.ok a) => .ok a

def relation? (v : Json) : Option Relation := v.asName?.bind Relation.ofName?

def sense? (v : Json) : Option Sense := v.asName?.bind Sense.ofName?

def step? (v : Json) : Option Step := v.asName?.bind Step.ofName?

instance : JsonForm Relation := ⟨fun _ r => names r.name, fun _ => plain relation?⟩

instance : JsonForm Sense := ⟨fun _ s => names s.name, fun _ => plain sense?⟩

instance : JsonForm Step := ⟨fun _ s => names s.name, fun _ => plain step?⟩

def problemFields : List String := ["objective", "sense", "matrix", "rhs", "relations"]

/-- the parts of a problem, which may disagree -/
def parts? (f : NumberFormat) (v : Json) : Option (Parts Float) :=
  match v.asRecord? problemFields with
  | some [objective, sense, matrix, rhs, relations] =>
    (objective.asList? (asDouble? f)).bind fun objective =>
      (sense? sense).bind fun sense =>
        (matrix.asList? (asList? (asDouble? f))).bind fun matrix =>
          (rhs.asList? (asDouble? f)).bind fun rhs =>
            (relations.asList? relation?).map fun relations =>
              ⟨objective, sense, matrix, rhs, relations⟩
  | _ => none

def problem? (f : NumberFormat) (v : Json) : Option (Except (Failure Float) (Problem Float)) :=
  (parts? f v).map fun p => Problem.ofParts p.objective p.sense p.matrix p.rhs p.relations

def ofParts (f : NumberFormat) (p : Parts Float) : Json :=
  record [("objective", doubles f p.objective), ("sense", names p.sense.name),
    ("matrix", grid f p.matrix), ("rhs", doubles f p.rhs),
    ("relations", array (p.relations.map fun r => names r.name))]

instance : JsonForm (Problem Float) where
  write f p := ofParts f p.parts
  read f v := checked (problem? f v)

def tableauFields : List String := ["data", "sense"]

/-- the rows of a tableau, which may disagree, and its sense -/
def rows? (f : NumberFormat) (v : Json) : Option (List (List Float) × Sense) :=
  match v.asRecord? tableauFields with
  | some [data, sense] =>
    (data.asList? (asList? (asDouble? f))).bind fun rows =>
      (sense? sense).map fun sense => (rows, sense)
  | _ => none

def tableau? (f : NumberFormat) (v : Json) : Option (Except (Failure Float) (Tableau Float)) :=
  (rows? f v).map fun (rows, sense) => Tableau.ofRows rows sense

instance : JsonForm (Tableau Float) where
  write f t := record [("data", grid f t.rows), ("sense", names t.sense.name)]
  read f v := checked (tableau? f v)

def solutionFields : List String := ["values", "objective_value"]

def solution? (f : NumberFormat) (v : Json) : Option (Solution Float) :=
  match v.asRecord? solutionFields with
  | some [values, objective] =>
    (values.asList? (asDouble? f)).bind fun values =>
      (asDouble? f objective).map fun objective => ⟨values, objective⟩
  | _ => none

instance : JsonForm (Solution Float) where
  write f s :=
    record [("values", doubles f s.values), ("objective_value", ofDouble f s.objectiveValue)]
  read f v := plain (solution? f) v

/-- The value that a document holds.  Parts that disagree are reported before text that follows
the value. -/
def readWith (f : NumberFormat) (α : Type) [JsonForm α] (text : List Char) : Except JsonError α :=
  match readFront text with
  | none => .error .malformed
  | some (v, rest) =>
    match read f v with
    | .error e => .error e
    | .ok a => if (skipSpace rest).isEmpty then .ok a else .error .malformed

def readAs (α : Type) [JsonForm α] (text : List Char) : Except JsonError α :=
  readWith .shortest α text

def toJson {α : Type} [JsonForm α] (a : α) : Json := write .shortest a

end JsonForm

open Json in
/-- what a step produced; snapshots are written only -/
def Snapshot.toJson : Snapshot Float → Json
  | problem p => record [("Transform", JsonForm.toJson p)]
  | tableau t => record [("Tableau", record [("tableau", JsonForm.toJson t.toTableau),
      ("basis", array (t.basis.map count))])]
  | solution s => record [("Solution", JsonForm.toJson s)]

end LinearProgram
