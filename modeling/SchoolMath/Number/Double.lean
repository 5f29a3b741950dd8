import SchoolMath.Number.Basic
import SchoolMath.Decimal.Notation
import SchoolMath.Decimal.Read

/-!
# `Number.Double` — doubles as the numbers of the program

The instances by which the solvers run on doubles. Sums, products, quotients and square roots round
once; the hypotenuse is the corrected square root of the sum of the squares, scaled away from
overflow and underflow.
-/

namespace SchoolMath

instance natCastFloat : NatCast Float := ⟨Float.ofNat⟩

/-- The powers that repeated squaring computes are those with an exponent of 31 bits; beyond, the
general power function takes over. -/
instance powFloatNat : Pow Float Nat where
  pow x n := if n < Decimal.twoTo 31 then powerBySquaring x n else Float.pow x n.toFloat

instance : Numeral Float where
  read text := (Decimal.read? text).getD 0
  write := Decimal.plain
  display := Decimal.display

/-- The natural number that `± significand · 2 ^ exponent` is. -/
def Decimal.Binary.toNat? : Decimal.Binary → Option Nat
  | .finite negative significand exponent =>
    let num := Decimal.numerator significand exponent
    let den := Decimal.denominator exponent
    if (negative = true ∧ significand ≠ 0) ∨ num % den ≠ 0 then none else some (num / den)
  | _ => none

instance : Whole Float where
  toNat? x := (Decimal.Binary.ofFloat x).toNat?

instance : SquareRoot Float := ⟨Float.sqrt⟩

instance : Finiteness Float := ⟨Float.isFinite⟩

namespace Double

/-- The number of degrees times this factor is the number of radians. -/
def radiansPerDegree : Float := 3.141592653589793 / 180

/-- The number of radians times this factor is the number of degrees. -/
def degreesPerRadian : Float := 180 / 3.141592653589793

/-- The power of two with an exponent between -1022 and 1023. -/
def powerOfTwo (exponent : Int) : Float :=
  Float.ofBits (UInt64.ofNat ((1023 + exponent).toNat * Decimal.twoTo 52))

/-- The square root of the sum of the squares of `x ≥ y`, one correction after the rounded root. -/
def correctedHypotenuse (x y : Float) : Float :=
  let h := Float.sqrt (x * x + y * y)
  let (t₁, t₂) :=
    if h ≤ 2 * y then
      let δ := h - y
      (x * (2 * δ - x), (δ - 2 * (x - y)) * δ)
    else
      let δ := h - x
      (2 * δ * (x - 2 * y), (4 * δ - y) * y + δ * δ)
  h - (t₁ + t₂) / (2 * h)

/-- The hypotenuse of two finite sides. A side too small to count is added; huge and tiny sides are
scaled by a power of two. -/
def hypotenuse (x y : Float) : Float :=
  let x := x.abs
  let y := y.abs
  let (a, b) := if x < y then (y, x) else (x, y)
  let scale := powerOfTwo (-600)
  if powerOfTwo 511 < a then
    if b ≤ a * powerOfTwo (-54) then a + b
    else correctedHypotenuse (a * scale) (b * scale) / scale
  else if b < powerOfTwo (-459) then
    if b / powerOfTwo (-54) ≤ a then a + b
    else correctedHypotenuse (a / scale) (b / scale) * scale
  else if b ≤ a * powerOfTwo (-54) then a + b
  else correctedHypotenuse a b

end Double

instance : Trigonometry Float where
  sine angle := Float.sin (angle * Double.radiansPerDegree)
  cosine angle := Float.cos (angle * Double.radiansPerDegree)
  arcsine ratio := Float.asin ratio * Double.degreesPerRadian
  arccosine ratio := Float.acos ratio * Double.degreesPerRadian
  hypotenuse := Double.hypotenuse

end SchoolMath
