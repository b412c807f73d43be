import LinearProgram.Decimal.Shortest

/-!
# How numbers are laid out

All texts of a double but the rounded ones spell its shortest decimal.  A `Layout` says where the
point goes.

* `Layout.plain`     never a power of ten: reports of problems and messages;
* `Layout.logged`    a power of ten outside of `10^-4 ≤ x < 10^16`: grids in the log;
* `Layout.exchange`  a power of ten outside of `10^-5 ≤ x < 10^16`: JSON;
* `fixedPlaces`      rounded to a number of places, a tie going to the even digit.
-/

namespace LinearProgram

structure Layout where
  /-- the powers of ten of the first digit that are written out -/
  positional : Int → Bool
  /-- whole numbers end in a point and a zero -/
  point : Bool
  /-- a plus sign before a power of ten -/
  plus : Bool
  /-- of two shortest decimals equally near, the upper one and not the even one -/
  tieUp : Bool

namespace Layout

def plain : Layout := ⟨fun _ => true, false, false, true⟩

def logged : Layout := ⟨fun e => -4 ≤ e && e < 16, true, false, true⟩

def exchange : Layout := ⟨fun e => -5 ≤ e && e < 16, true, true, false⟩

/-- digits without the zeros at their end, and the power of ten of the first one -/
def significant (digits : Nat) (exponent : Int) : List Char × Int :=
  let all := digitChars digits
  ((all.reverse.dropWhile (· == '0')).reverse, exponent + all.length - 1)

/-- the numeral with these digits, the first of which stands for `10^e` -/
def place (l : Layout) (negative : Bool) (digits : List Char) (e : Int) : Numeral :=
  if l.positional e then
    let (whole, fraction) :=
      if e < 0 then (['0'], List.replicate (-e - 1).toNat '0' ++ digits)
      else
        let n := e.toNat + 1
        (digits.take n ++ List.replicate (n - digits.length) '0', digits.drop n)
    ⟨negative, whole, if l.point && fraction.isEmpty then ['0'] else fraction, none⟩
  else ⟨negative, digits.take 1, digits.drop 1, some e⟩

/-- the numeral of a finite double -/
def numeral (l : Layout) (x : Float) : Numeral :=
  let rank := Double.rank x
  if rank = 0 then l.place (Double.isNegative x) ['0'] 0
  else
    let (digits, exponent) := Double.shortest l.tieUp rank
    let (digits, e) := significant digits exponent
    l.place (Double.isNegative x) digits e

end Layout

/-- the text of a double that is no number -/
def nonFinite (x : Float) : List Char :=
  if Double.isNaN x then "NaN".toList
  else if Double.isNegative x then "-inf".toList
  else "inf".toList

def Layout.chars (l : Layout) (x : Float) : List Char :=
  if Double.isFinite x then (l.numeral x).chars l.plus else nonFinite x

def Layout.text (l : Layout) (x : Float) : String := String.ofList (l.chars x)

/-- a double rounded to `places` digits after the point -/
def fixedPlaces (places : Nat) (x : Float) : List Char :=
  if Double.isFinite x then
    let n := roundQuotient (Double.units (Double.rank x) * Nat.pow 10 places) Double.unitsPerOne
    let fraction := digitChars (n % Nat.pow 10 places)
    (if Double.isNegative x then ['-'] else []) ++ digitChars (n / Nat.pow 10 places) ++
      '.' :: (List.replicate (places - fraction.length) '0' ++ fraction)
  else nonFinite x

end LinearProgram
