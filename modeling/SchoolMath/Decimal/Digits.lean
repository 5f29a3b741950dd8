/-!
# `Decimal.Digits` — decimal numbers and their digits

A `Scientific` number is a whole number times a power of ten. Its digits are laid out by the modules
that write numbers.
-/

namespace SchoolMath.Decimal

/-- The powers of ten. -/
def tenTo (n : Nat) : Nat := Nat.pow 10 n

/-- The decimal digits of `n`, without superfluous zeros. -/
def digits (n : Nat) : List Char := Nat.toDigits 10 n

/-- The digits of `n` with zeros in front up to `width` digits. -/
def paddedDigits (width n : Nat) : List Char :=
  List.replicate (width - (digits n).length) '0' ++ digits n

/-- The number written by a list of digits. -/
def ofDigits (ds : List Char) : Nat := ds.foldl (fun n c => 10 * n + (c.toNat - '0'.toNat)) 0

/-- The decimal number `coefficient · 10 ^ exponent`. -/
structure Scientific where
  coefficient : Nat
  exponent : Int
deriving DecidableEq, Repr

namespace Scientific

/-- The power of ten of the leading digit, when the coefficient is not zero. -/
def leadingExponent (d : Scientific) : Int := d.exponent + ((digits d.coefficient).length - 1 : Nat)

/-- The same number with up to `fuel` trailing zeros of the coefficient moved to the exponent. -/
def trimmedBy : Nat → Scientific → Scientific
  | 0, d => d
  | fuel + 1, d =>
    if d.coefficient ≠ 0 ∧ d.coefficient % 10 = 0 then
      trimmedBy fuel ⟨d.coefficient / 10, d.exponent + 1⟩
    else d

/-- The same number, the coefficient ending in a digit other than zero (or being zero). -/
def trimmed (d : Scientific) : Scientific := d.trimmedBy (digits d.coefficient).length

/-- The digits before the point, when no exponent is written. -/
def wholeDigits (d : Scientific) : List Char :=
  if 0 ≤ d.exponent then digits (d.coefficient * tenTo d.exponent.toNat)
  else digits (d.coefficient / tenTo (-d.exponent).toNat)

/-- The digits behind the point, when no exponent is written. -/
def fractionDigits (d : Scientific) : List Char :=
  if 0 ≤ d.exponent then []
  else paddedDigits (-d.exponent).toNat (d.coefficient % tenTo (-d.exponent).toNat)

end Scientific

end SchoolMath.Decimal
