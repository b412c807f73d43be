import LinearProgram.Decimal.Double

/-!
# Written decimals

A `Decimal` is a number `± digits * 10^exponent`; a `Numeral` is one as it is written, with a
whole part, a fraction and a power of ten.

* `Decimal.nearest`     the double nearest to a decimal, a tie going to the even one;
* `Numeral.read?`       the numeral that a text spells;
* `Numeral.double?`     the finite double nearest to a numeral;
* `Numeral.chars`       the text of a numeral.
-/

namespace LinearProgram

structure Decimal where
  negative : Bool
  digits : Nat
  exponent : Int
  deriving DecidableEq

/-- the decimal digits of a number, the first one first -/
def digitChars (n : Nat) : List Char := Nat.toDigits 10 n

/-- the number that digits spell -/
def digitsValue (digits : List Char) : Nat :=
  digits.foldl (fun n c => 10 * n + (c.toNat - '0'.toNat)) 0

namespace Decimal

/-- The double nearest to a decimal.  From `10^310` on all is infinite, and below `10^-330` all is
zero, so that no larger power of ten is ever computed. -/
def nearest (d : Decimal) : Float :=
  let top := (digitChars d.digits).length + d.exponent
  Double.ofRank d.negative <|
    if d.digits = 0 ∨ top < -330 then 0
    else if 310 < top then Double.infinityRank
    else
      Double.rankOf (d.digits * Nat.pow 10 d.exponent.toNat * Double.unitsPerOne)
        (Nat.pow 10 (-d.exponent).toNat)

end Decimal

structure Numeral where
  negative : Bool
  /-- the digits before the point -/
  whole : List Char
  /-- the digits after the point; with none there is no point -/
  fraction : List Char
  exponent : Option Int
  deriving DecidableEq

namespace Numeral

def decimal (n : Numeral) : Decimal :=
  ⟨n.negative, digitsValue (n.whole ++ n.fraction), n.exponent.getD 0 - n.fraction.length⟩

/-- the finite double nearest to a numeral, however many digits it has -/
def double? (n : Numeral) : Option Float := (some n.decimal.nearest).filter Double.isFinite

/-! ### writing -/

def exponentChars (plus : Bool) (e : Int) : List Char :=
  'e' :: ((if e < 0 then ['-'] else if plus then ['+'] else []) ++ digitChars e.natAbs)

/-- the text of a numeral; `plus` asks for a sign before a power of ten that is not negative -/
def chars (plus : Bool) (n : Numeral) : List Char :=
  (if n.negative then ['-'] else []) ++ n.whole ++
    (if n.fraction.isEmpty then [] else '.' :: n.fraction) ++
    (match n.exponent with
      | none => []
      | some e => exponentChars plus e)

/-! ### reading -/

/-- an optional sign, true for a minus -/
def takeSign : List Char → Bool × List Char
  | '-' :: rest => (true, rest)
  | '+' :: rest => (false, rest)
  | text => (false, text)

/-- a power of ten, after its mark -/
def readExponent? (text : List Char) : Option Int :=
  let (negative, digits) := takeSign text
  if digits.isEmpty || !digits.all Char.isDigit then none
  else some (if negative then -(digitsValue digits : Int) else digitsValue digits)

/-- The numeral spelled by the whole of a text: an optional sign, digits with at most one point
among or around them, and an optional power of ten. -/
def read? (text : List Char) : Option Numeral :=
  let (negative, text) := takeSign text
  let (whole, text) := text.span Char.isDigit
  let (fraction, text) :=
    match text with
    | '.' :: rest => rest.span Char.isDigit
    | _ => ([], text)
  if whole.isEmpty && fraction.isEmpty then none
  else
    match text with
    | [] => some ⟨negative, whole, fraction, none⟩
    | mark :: rest =>
      if mark = 'e' || mark = 'E' then
        (readExponent? rest).map fun e => ⟨negative, whole, fraction, some e⟩
      else none

end Numeral

/-- The number that a text spells, as a double. -/
def readNumber? (text : List Char) : Option Float := (Numeral.read? text).bind Numeral.double?

end LinearProgram
