import SchoolMath.Decimal.Shortest

/-!
# `Decimal.Notation` — the ways a number is written

* `plain`: the shortest digits, never an exponent;
* `display`: the digits of whole numbers and else six decimals at most, for people;
* `twelveDigits`: twelve significant digits and an exponent;
* `json`: the shortest digits as a JSON number.
-/

namespace SchoolMath.Decimal

/-- The sign of a number that is shown with one. -/
def signText (negative : Bool) : List Char := if negative then ['-'] else []

/-- The digits behind the point with the point before them; nothing if there are none. -/
def fractionText (ds : List Char) : List Char := if ds.isEmpty then [] else '.' :: ds

/-- The text of an infinite number. -/
def infinityText (negative : Bool) : List Char := signText negative ++ "inf".toList

/-- The shortest text that reads back, without an exponent and without a fraction for whole numbers. -/
def plain (x : Float) : String :=
  String.ofList <| match Binary.ofFloat x with
    | .notANumber => "NaN".toList
    | .infinite negative => infinityText negative
    | .finite negative significand exponent =>
      let d := shortest .upward significand exponent
      signText negative ++ d.wholeDigits ++ fractionText d.fractionDigits

/-- A whole number with a minus sign if it is negative. -/
def integerText (n : Int) : List Char := signText (n < 0) ++ digits n.natAbs

/-- The text without the characters `c` at its end. -/
def dropTrailing (c : Char) (text : List Char) : List Char :=
  (text.reverse.dropWhile (· == c)).reverse

/-- The digits without the zeros at their end. -/
def dropTrailingZeros (ds : List Char) : List Char := dropTrailing '0' ds

/-- A count of millionths with exactly six decimals. -/
def sixDecimals (negative : Bool) (n : Nat) : List Char :=
  signText negative ++ digits (n / tenTo 6) ++ '.' :: paddedDigits 6 (n % tenTo 6)

/-- A decimal without zeros and then without points at its end; zero has no sign. -/
def trimmed (text : List Char) : List Char :=
  let text := dropTrailing '.' (dropTrailingZeros text)
  if text = ['-', '0'] then ['0'] else text

/-- The exact value rounded to six decimals, all of them written. -/
def fixedText : Binary → List Char
  | .notANumber => "NaN".toList
  | .infinite negative => infinityText negative
  | .finite negative significand exponent =>
    sixDecimals negative (atPlaces 6 significand exponent)

/-- The whole number that a value is, if it is one. -/
def Binary.toInt? : Binary → Option Int
  | .finite negative significand exponent =>
    let num := numerator significand exponent
    let den := denominator exponent
    if num % den ≠ 0 then none
    else some (if negative then -((num / den : Nat) : Int) else (num / den : Nat))
  | _ => none

/-- The text for people. A whole number of at most fifteen digits is written by its digits; any other
value is rounded to six decimals, and what is superfluous at the end is taken away. -/
def displayBinary (b : Binary) : List Char :=
  match b.toInt?.filter fun n => n.natAbs < tenTo 15 with
  | some n => integerText n
  | none => trimmed (fixedText b)

/-- The number rounded to at most six decimals, whole numbers without a fraction. -/
def display (x : Float) : String := String.ofList (displayBinary (Binary.ofFloat x))

/-- Digits in scientific form: a point behind the first one, and the exponent of ten. -/
def scientificText (ds : List Char) (exponent : List Char) : List Char :=
  ds.take 1 ++ fractionText (ds.drop 1) ++ 'e' :: exponent

/-- Twelve significant digits and an exponent of ten. -/
def twelveDigits (x : Float) : String :=
  String.ofList <| match Binary.ofFloat x with
    | .notANumber => "NaN".toList
    | .infinite negative => infinityText negative
    | .finite negative significand exponent =>
      let d := atDigits 12 significand exponent
      signText negative ++
        scientificText (paddedDigits 12 d.coefficient) (integerText (d.exponent + 11))

/-- The leading exponents that JSON numbers write without an exponent: from `10 ^ -5` to `10 ^ 15`. -/
def isPositional (exponent : Int) : Bool := -5 ≤ exponent && exponent ≤ 15

/-- A JSON number, with at least one decimal or an exponent; `none` for what JSON cannot write. -/
def json? (x : Float) : Option String :=
  match Binary.ofFloat x with
  | .finite negative significand exponent =>
    let d := shortest .toEven significand exponent
    let power := d.leadingExponent
    some <| String.ofList <| signText negative ++
      if isPositional power then
        d.wholeDigits ++ '.' :: (if d.fractionDigits.isEmpty then ['0'] else d.fractionDigits)
      else
        scientificText (digits d.coefficient) ((if 0 ≤ power then ['+'] else []) ++ integerText power)
  | _ => none

end SchoolMath.Decimal
