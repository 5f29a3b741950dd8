import SchoolMath.Decimal.Digits

/-!
# `Decimal.Read` — reading decimal numbers

A number is an optional sign followed by `inf`, `infinity` or `nan` in any case, or by digits with an
optional point among them (at least one digit) and an optional exponent. The value is the double
nearest to it.
-/

namespace SchoolMath.Decimal

/-- The sign in front of a text, and the text behind it. -/
def splitSign : List Char → Bool × List Char
  | '-' :: cs => (true, cs)
  | '+' :: cs => (false, cs)
  | cs => (false, cs)

/-- The exponent of ten at the end of a number: zero for the empty text, else `e` or `E`, an optional
sign and digits. -/
def readExponent? : List Char → Option Int
  | [] => some 0
  | c :: cs =>
    if c = 'e' ∨ c = 'E' then
      let (negative, ds) := splitSign cs
      if !ds.isEmpty && ds.all Char.isDigit then
        some (if negative then -(ofDigits ds : Int) else ofDigits ds)
      else none
    else none

/-- An unsigned number with digits. -/
def readScientific? (cs : List Char) : Option Scientific :=
  let whole := cs.takeWhile Char.isDigit
  let rest := cs.dropWhile Char.isDigit
  let (fraction, rest) : List Char × List Char := match rest with
    | '.' :: r => (r.takeWhile Char.isDigit, r.dropWhile Char.isDigit)
    | r => ([], r)
  if whole.isEmpty && fraction.isEmpty then none
  else (readExponent? rest).map fun exponent =>
    ⟨ofDigits (whole ++ fraction), exponent - fraction.length⟩

/-- The double nearest to a decimal number. -/
def Scientific.toFloat (d : Scientific) : Float :=
  Float.ofScientific d.coefficient (d.exponent < 0) d.exponent.natAbs

/-- An unsigned number. -/
def readUnsigned? (cs : List Char) : Option Float :=
  let name := String.ofList (cs.map Char.toLower)
  if name = "inf" ∨ name = "infinity" then some (1 / 0)
  else if name = "nan" then some (0 / 0)
  else (readScientific? cs).map Scientific.toFloat

/-- The number that a text writes. -/
def read? (text : String) : Option Float :=
  let (negative, cs) := splitSign text.toList
  (readUnsigned? cs).map fun x => if negative then -x else x

end SchoolMath.Decimal
