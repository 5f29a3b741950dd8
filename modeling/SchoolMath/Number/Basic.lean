/-!
# `Number.Basic` — what the solvers ask of numbers

The solvers work over any type of numbers with the operations they use. The arithmetic operations
are those of the standard classes; the classes here add what those do not name. The running program
computes with doubles (`Number.Double`); a statement about exact arithmetic reads the same
definitions over a field or over the reals.
-/

namespace SchoolMath

/-- Numbers that have a written form. -/
class Numeral (K : Type) where
  /-- The number that a numeral of the expression grammar writes. -/
  read : String → K
  /-- The text of a number that reads back. -/
  write : K → String
  /-- The text of a number for people, rounded if need be. -/
  display : K → String

/-- Numbers some of which are natural numbers. -/
class Whole (K : Type) where
  /-- The natural number that a number is, if it is one. -/
  toNat? : K → Option Nat

/-- Numbers with a square root. -/
class SquareRoot (K : Type) where
  /-- The square root of a number that is not negative. -/
  squareRoot : K → K

/-- Numbers among which some may be infinite or undefined. -/
class Finiteness (K : Type) where
  /-- Whether a number is neither infinite nor undefined. -/
  isFinite : K → Bool

/-- Numbers with the functions that relate the sides and the angles of a triangle. Angles are in
degrees. -/
class Trigonometry (K : Type) where
  /-- The sine of an angle. -/
  sine : K → K
  /-- The cosine of an angle. -/
  cosine : K → K
  /-- The angle with a given sine. -/
  arcsine : K → K
  /-- The angle with a given cosine. -/
  arccosine : K → K
  /-- The side opposite the right angle between two sides. -/
  hypotenuse : K → K → K

export SquareRoot (squareRoot)
export Finiteness (isFinite)
export Trigonometry (sine cosine arcsine arccosine hypotenuse)

section Powers

variable {K : Type} [Mul K]

/-- `acc` times the `n`-th power of `base`: the factors are the squares that the binary digits of `n`
select, the least first. -/
def squaringFrom (acc base : K) (n : Nat) : K :=
  if n = 0 then acc
  else squaringFrom (if n % 2 = 1 then acc * base else acc) (base * base) (n / 2)
termination_by n
decreasing_by omega

/-- The `n`-th power of `base` by repeated squaring. -/
def powerBySquaring [One K] (base : K) (n : Nat) : K := squaringFrom 1 base n

end Powers

end SchoolMath
