import SchoolMath.Decimal.Binary
import SchoolMath.Decimal.Digits

/-!
# `Decimal.Rounded` — rounding an exact value to the decimal grid

Quotients are rounded to the nearest whole number, a half to the even one. From that come the value
in units of a fixed decimal place and the value to a fixed count of significant digits.
-/

namespace SchoolMath.Decimal

/-- The whole number nearest to `num / den`; of two equally near ones the even one. -/
def roundDiv (num den : Nat) : Nat :=
  let below := num / den
  match compare (2 * (num % den)) den with
  | .lt => below
  | .eq => below + below % 2
  | .gt => below + 1

/-- `significand · 2 ^ exponent` in units of `10 ^ -places`, rounded. -/
def atPlaces (places significand : Nat) (exponent : Int) : Nat :=
  roundDiv (numerator significand exponent * tenTo places) (denominator exponent)

/-- The power of ten of the leading digit of the positive fraction `num / den`. -/
def leadingPower (num den : Nat) : Int :=
  if den ≤ num then ((digits (num / den)).length - 1 : Nat)
  else
    let shift := (digits (den / num)).length
    if den ≤ num * tenTo (shift - 1) then -((shift - 1 : Nat) : Int) else -(shift : Int)

/-- The fraction `num / den` in units of `10 ^ power`, as a fraction again. -/
def inUnits (num den : Nat) (power : Int) : Nat × Nat :=
  (num * tenTo (-power).toNat, den * tenTo power.toNat)

/-- `significand · 2 ^ exponent` rounded to `count` significant digits; zero has the exponent that
puts its only digit in the leading place. -/
def atDigits (count significand : Nat) (exponent : Int) : Scientific :=
  if significand = 0 then ⟨0, 1 - (count : Int)⟩
  else
    let num := numerator significand exponent
    let den := denominator exponent
    let power := leadingPower num den - ((count : Int) - 1)
    let (n, d) := inUnits num den power
    let coefficient := roundDiv n d
    if coefficient = tenTo count then ⟨tenTo (count - 1), power + 1⟩ else ⟨coefficient, power⟩

end SchoolMath.Decimal
