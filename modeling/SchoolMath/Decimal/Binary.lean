/-!
# `Decimal.Binary` — the exact value of a double

Every finite double is a whole number times a power of two. `Binary.ofFloat` takes a double apart
into that form; the texts of numbers are computed from it in exact arithmetic.
-/

namespace SchoolMath.Decimal

/-- The powers of two. -/
def twoTo (n : Nat) : Nat := Nat.pow 2 n

/-- The value of a double: not a number, infinite, or `± significand · 2 ^ exponent`. -/
inductive Binary where
  | notANumber
  | infinite (negative : Bool)
  | finite (negative : Bool) (significand : Nat) (exponent : Int)
deriving DecidableEq, Repr

namespace Binary

/-- Reads the sign, the eleven exponent bits and the 52 fraction bits of a bit pattern. -/
def ofBits (bits : Nat) : Binary :=
  let negative := bits / twoTo 63 % 2 == 1
  let exponent : Nat := bits / twoTo 52 % twoTo 11
  let fraction := bits % twoTo 52
  if exponent = twoTo 11 - 1 then
    if fraction = 0 then .infinite negative else .notANumber
  else if exponent = 0 then .finite negative fraction (-1074)
  else .finite negative (twoTo 52 + fraction) ((exponent : Int) - 1075)

/-- The exact value of a double. -/
def ofFloat (x : Float) : Binary := ofBits x.toBits.toNat

end Binary

/-- The numerator of `significand · 2 ^ exponent` as a fraction of whole numbers. -/
def numerator (significand : Nat) (exponent : Int) : Nat := significand * twoTo exponent.toNat

/-- The denominator of `significand · 2 ^ exponent` as a fraction of whole numbers. -/
def denominator (exponent : Int) : Nat := twoTo (-exponent).toNat

end SchoolMath.Decimal
