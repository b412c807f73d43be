import LinearProgram.Json.Value

/-!
# Reading JSON

`Json.readValue` reads one value from the front of a text and leaves the rest.  The only fuel it
needs is the length of the text, since every value has a character of its own.
-/

namespace LinearProgram

namespace Json

def isSpace (c : Char) : Bool := c == ' ' || c == '\n' || c == '\r' || c == '\t'

def skipSpace (text : List Char) : List Char := text.dropWhile isSpace

/-! ### numbers -/

/-- one digit or more -/
def readDigits? (text : List Char) : Option (List Char × List Char) :=
  let (digits, rest) := text.span Char.isDigit
  if digits.isEmpty then none else some (digits, rest)

/-- the digits before the point: no zero before another digit -/
def readWhole? (text : List Char) : Option (List Char × List Char) :=
  (readDigits? text).filter fun (digits, _) => digits.length = 1 || digits.head? != some '0'

def readFraction? : List Char → Option (List Char × List Char)
  | '.' :: rest => readDigits? rest
  | text => some ([], text)

def readExponentPart? : List Char → Option (Option Int × List Char)
  | mark :: rest =>
    if mark = 'e' || mark = 'E' then
      let (negative, rest) := Numeral.takeSign rest
      (readDigits? rest).map fun (digits, rest) =>
        (some (if negative then -(digitsValue digits : Int) else digitsValue digits), rest)
    else some (none, mark :: rest)
  | [] => some (none, [])

/-- a number from its first digit on -/
def readUnsigned? (negative : Bool) (text : List Char) : Option (Numeral × List Char) :=
  (readWhole? text).bind fun (whole, text) =>
    (readFraction? text).bind fun (fraction, text) =>
      (readExponentPart? text).map fun (exponent, text) =>
        (⟨negative, whole, fraction, exponent⟩, text)

def readNumeral? : List Char → Option (Numeral × List Char)
  | '-' :: rest => readUnsigned? true rest
  | text => readUnsigned? false text

/-! ### strings -/

def hexValue? (c : Char) : Option Nat :=
  if '0' ≤ c && c ≤ '9' then some (c.toNat - '0'.toNat)
  else if 'a' ≤ c && c ≤ 'f' then some (c.toNat - 'a'.toNat + 10)
  else if 'A' ≤ c && c ≤ 'F' then some (c.toNat - 'A'.toNat + 10)
  else none

def hexCode? (a b c d : Char) : Option Nat :=
  match hexValue? a, hexValue? b, hexValue? c, hexValue? d with
  | some a, some b, some c, some d => some (((a * 16 + b) * 16 + c) * 16 + d)
  | _, _, _, _ => none

/-- the code of an escape of one letter -/
def shortEscape? (c : Char) : Option Nat :=
  if c = '"' || c = '\\' || c = '/' then some c.toNat
  else if c = 'b' then some 0x08
  else if c = 'f' then some 0x0C
  else if c = 'n' then some 0x0A
  else if c = 'r' then some 0x0D
  else if c = 't' then some 0x09
  else none

/-- The codes of a string after its opening quote; an escape may stand for half of a pair. -/
def readCodes? : List Char → Option (List Nat × List Char)
  | [] => none
  | '"' :: rest => some ([], rest)
  | '\\' :: 'u' :: a :: b :: c :: d :: rest =>
    match hexCode? a b c d with
    | none => none
    | some n => (readCodes? rest).map fun (codes, rest) => (n :: codes, rest)
  | '\\' :: c :: rest =>
    match shortEscape? c with
    | none => none
    | some n => (readCodes? rest).map fun (codes, rest) => (n :: codes, rest)
  | c :: rest =>
    if c = '\\' || c.toNat < 0x20 then none
    else (readCodes? rest).map fun (codes, rest) => (c.toNat :: codes, rest)

/-- The characters that codes stand for, halves of surrogate pairs put together. -/
def joinCodes? : List Nat → Option (List Char)
  | [] => some []
  | high :: low :: rest =>
    if 0xD800 ≤ high && high < 0xDC00 then
      if 0xDC00 ≤ low && low < 0xE000 then
        (joinCodes? rest).map
          (Char.ofNat ((high - 0xD800) * 0x400 + (low - 0xDC00) + 0x10000) :: ·)
      else none
    else if 0xDC00 ≤ high && high < 0xE000 then none
    else (joinCodes? (low :: rest)).map (Char.ofNat high :: ·)
  | [last] => if 0xD800 ≤ last && last < 0xE000 then none else some [Char.ofNat last]

/-- A string after its opening quote; `none` inside for one that is no text. -/
def readString? (text : List Char) : Option (Option (List Char) × List Char) :=
  (readCodes? text).map fun (codes, rest) => (joinCodes? codes, rest)

/-! ### values -/

/-- the text after a word that it starts with -/
def after? (word text : List Char) : Option (List Char) :=
  if word.isPrefixOf text then some (text.drop word.length) else none

/-- an object, unless one of its names is no text -/
def objectOf (fields : List (Option (List Char) × Json)) : Json :=
  match fields.mapM fun (name?, value) => name?.map (·, value) with
  | some fields => object fields
  | none => unreadable

mutual

/-- A value at the front of a text, with the text after it. -/
def readValue : Nat → List Char → Option (Json × List Char)
  | 0, _ => none
  | fuel + 1, text =>
    match skipSpace text with
    | [] => none
    | 'n' :: rest => (after? "ull".toList rest).map (null, ·)
    | 't' :: rest => (after? "rue".toList rest).map (bool true, ·)
    | 'f' :: rest => (after? "alse".toList rest).map (bool false, ·)
    | '"' :: rest =>
      (readString? rest).map fun (text?, rest) =>
        (match text? with
          | some text => string text
          | none => unreadable, rest)
    | '[' :: rest =>
      match skipSpace rest with
      | ']' :: rest => some (array [], rest)
      | rest => (readItems fuel rest).map fun (items, rest) => (array items, rest)
    | '\x7b' :: rest =>
      match skipSpace rest with
      | '\x7d' :: rest => some (object [], rest)
      | rest => (readFields fuel rest).map fun (fields, rest) => (objectOf fields, rest)
    | text => (readNumeral? text).map fun (n, rest) => (number n, rest)

/-- items up to the end of an array -/
def readItems : Nat → List Char → Option (List Json × List Char)
  | 0, _ => none
  | fuel + 1, text =>
    match readValue fuel text with
    | none => none
    | some (item, rest) =>
      match skipSpace rest with
      | ']' :: rest => some ([item], rest)
      | ',' :: rest => (readItems fuel rest).map fun (items, rest) => (item :: items, rest)
      | _ => none

/-- fields up to the end of an object -/
def readFields : Nat → List Char → Option (List (Option (List Char) × Json) × List Char)
  | 0, _ => none
  | fuel + 1, text =>
    match skipSpace text with
    | '"' :: rest =>
      match readString? rest with
      | none => none
      | some (name?, rest) =>
        match skipSpace rest with
        | ':' :: rest =>
          match readValue fuel rest with
          | none => none
          | some (value, rest) =>
            match skipSpace rest with
            | '\x7d' :: rest => some ([(name?, value)], rest)
            | ',' :: rest =>
              (readFields fuel rest).map fun (fields, rest) => ((name?, value) :: fields, rest)
            | _ => none
        | _ => none
    | _ => none

end

/-- a value at the front of a text, with fuel for all of it -/
def readFront (text : List Char) : Option (Json × List Char) :=
  readValue (2 * text.length + 1) text

/-- a text that holds one value and nothing else -/
def read? (text : List Char) : Option Json :=
  (readFront text).bind fun (v, rest) => if (skipSpace rest).isEmpty then some v else none

end Json

end LinearProgram
