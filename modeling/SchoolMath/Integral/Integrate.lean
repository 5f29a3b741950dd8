import SchoolMath.Expression.Basic
import SchoolMath.Polynomial.Compile
import SchoolMath.Step

/-!
# `Integral.Integrate` — integrating polynomials

The integrand is expanded as a polynomial in the integration variable and integrated term by term. With
both bounds the value is the difference of the antiderivative's values; a bound has to be a finite
constant.
-/

namespace SchoolMath

/-- What integrating gives; a value only if there are two bounds. -/
structure Integrated (K : Type) where
  antiderivative : Polynomial K
  value : Option K
  steps : List (Step K)

namespace IntegralExpression

variable {K : Type} [Zero K] [One K] [Add K] [Sub K] [Mul K] [Div K] [Neg K] [NatCast K] [BEq K]
  [Pow K Nat] [Pow K K] [Whole K] [Finiteness K]

/-- The number that a bound is. -/
def boundValue (bound : Expression K) : Except (Failure K) K :=
  match bound.tree.fold? with
  | some value => if isFinite value then .ok value else .error (.boundNotConstant bound.text)
  | none => .error (.boundNotConstant bound.text)

/-- The antiderivative of an integral and, between two bounds, its value. -/
def integrate (integral : IntegralExpression K) : Except (Failure K) (Integrated K) := do
  let polynomial ← Polynomial.ofTree integral.unknown integral.integrand.tree
  let antiderivative ← polynomial.antiderivative
  let steps := [.integral integral.integrand.text integral.unknown,
    .integrated integral.unknown antiderivative]
  match integral.lower, integral.upper with
  | some lower, some upper =>
    let a ← boundValue lower
    let b ← boundValue upper
    let value := antiderivative.evaluate b - antiderivative.evaluate a
    return ⟨antiderivative, some value, steps ++ [.definite b a value]⟩
  | _, _ => return ⟨antiderivative, none, steps⟩

end IntegralExpression

end SchoolMath
