import LinearProgram.Decimal.Numeral

/-!
# JSON values and their text

* `Json.compact`   the text without blanks;
* `Json.pretty`    one element per line, two spaces deeper at each level.
-/

namespace LinearProgram

inductive Json where
  | null
  | bool (b : Bool)
  | number (n : Numeral)
  | string (text : List Char)
  | array (items : List Json)
  | object (fields : List (List Char × Json))
  /-- what a text can hold and a value cannot: a string with half of a surrogate pair, or an
  object with such a name -/
  | unreadable

namespace Json

/-! ### strings -/

def hexDigits (n : Nat) : List Char :=
  let digits := Nat.toDigits 16 n
  List.replicate (4 - digits.length) '0' ++ digits

/-- A character inside of a string: quotes, backslashes and control characters are escaped. -/
def escapeChar (c : Char) : List Char :=
  if c = '"' then ['\\', '"']
  else if c = '\\' then ['\\', '\\']
  else if c = '\x08' then ['\\', 'b']
  else if c = '\x0c' then ['\\', 'f']
  else if c = '\n' then ['\\', 'n']
  else if c = '\r' then ['\\', 'r']
  else if c = '\t' then ['\\', 't']
  else if c.toNat < 0x20 then '\\' :: 'u' :: hexDigits c.toNat
  else [c]

def quoted (text : List Char) : List Char := '"' :: text.flatMap escapeChar ++ ['"']

/-! ### values -/

mutual

def compact : Json → List Char
  | null => "null".toList
  | bool true => "true".toList
  | bool false => "false".toList
  | number n => n.chars true
  | string text => quoted text
  | array [] => "[]".toList
  | array (item :: rest) => '[' :: compact item ++ compactItems rest ++ [']']
  | object [] => "\x7b\x7d".toList
  | object ((name, value) :: rest) =>
    '\x7b' :: quoted name ++ ':' :: compact value ++ compactFields rest ++ ['\x7d']
  | unreadable => "null".toList

/-- the items after the first -/
def compactItems : List Json → List Char
  | [] => []
  | item :: rest => ',' :: compact item ++ compactItems rest

/-- the fields after the first -/
def compactFields : List (List Char × Json) → List Char
  | [] => []
  | (name, value) :: rest => ',' :: quoted name ++ ':' :: compact value ++ compactFields rest

end

/-- a new line at a depth -/
def newLine (depth : Nat) : List Char := '\n' :: List.replicate (2 * depth) ' '

mutual

/-- the text of a value that stands at a depth -/
def prettyAt (depth : Nat) : Json → List Char
  | null => "null".toList
  | bool true => "true".toList
  | bool false => "false".toList
  | number n => n.chars true
  | string text => quoted text
  | array [] => "[]".toList
  | array (item :: rest) =>
    '[' :: newLine (depth + 1) ++ prettyAt (depth + 1) item ++ prettyItems (depth + 1) rest ++
      newLine depth ++ [']']
  | object [] => "\x7b\x7d".toList
  | object ((name, value) :: rest) =>
    '\x7b' :: newLine (depth + 1) ++ quoted name ++ ':' :: ' ' :: prettyAt (depth + 1) value ++
      prettyFields (depth + 1) rest ++ newLine depth ++ ['\x7d']
  | unreadable => "null".toList

def prettyItems (depth : Nat) : List Json → List Char
  | [] => []
  | item :: rest => ',' :: newLine depth ++ prettyAt depth item ++ prettyItems depth rest

def prettyFields (depth : Nat) : List (List Char × Json) → List Char
  | [] => []
  | (name, value) :: rest =>
    ',' :: newLine depth ++ quoted name ++ ':' :: ' ' :: prettyAt depth value ++
      prettyFields depth rest

end

def pretty (v : Json) : List Char := prettyAt 0 v

end Json

end LinearProgram
