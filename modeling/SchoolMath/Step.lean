import SchoolMath.Polynomial.Text
import SchoolMath.Trace

/-!
# `Step` — the steps of solving and integrating

A step is data: what was done, and the numbers it was done with. `Step.text` words it.
-/

namespace SchoolMath

/-- What a solver did. -/
inductive Step (K : Type) where
  | evaluated (expression : String) (value : K)
  | expanded (expression unknown : String) (polynomial : Polynomial K)
  | selected (unknown : String)
  | converted (difference unknown : String) (polynomial : Polynomial K) (degree : Nat)
  /-- Solved `a·x + b = 0`. -/
  | solvedLinear (a b : K)
  /-- The coefficient of the square vanished. -/
  | squareVanished
  | discriminant (value : K)
  | quadraticFormula
  /-- Rows `a₁₁ a₁₂ | b₁` and `a₂₁ a₂₂ | b₂` of two equations in `x` and `y`. -/
  | linearSystem (a₁₁ a₁₂ a₂₁ a₂₂ : K) (x y : String) (b₁ b₂ : K)
  | cramer (determinant : K)
  | integral (integrand unknown : String)
  | integrated (unknown : String) (antiderivative : Polynomial K)
  | definite (upper lower value : K)

variable {K : Type} [Zero K] [One K] [Neg K] [BEq K] [LT K] [DecidableLT K] [Numeral K]

/-- The wording of a step. -/
def Step.text : Step K → String
  | .evaluated expression value => s!"Evaluated {expression} = {Numeral.display value}"
  | .expanded expression unknown polynomial =>
    s!"Expanded {expression} as a polynomial in {unknown}: {polynomial.render unknown}"
  | .selected unknown => s!"Selected variable {unknown}"
  | .converted difference unknown polynomial degree =>
    s!"Converted {difference} = 0 to polynomial {polynomial.render unknown} of degree {degree}"
  | .solvedLinear a b =>
    s!"Solved linear equation {Numeral.display a}·x + {Numeral.display b} = 0 as x = -b/a"
  | .squareVanished => "Quadratic coefficient is zero, solving as linear"
  | .discriminant value => s!"Computed discriminant b² - 4ac = {Numeral.display value}"
  | .quadraticFormula => "Solved using the quadratic formula"
  | .linearSystem a₁₁ a₁₂ a₂₁ a₂₂ x y b₁ b₂ =>
    let row (a b : K) := s!"[{Numeral.display a}, {Numeral.display b}]"
    s!"Constructed linear system [{row a₁₁ a₁₂}, {row a₂₁ a₂₂}]·({x}, {y})" ++
      s!" = ({Numeral.display b₁}, {Numeral.display b₂})"
  | .cramer determinant =>
    s!"Solved using Cramer's rule with determinant {Numeral.display determinant}"
  | .integral integrand unknown =>
    s!"Parsed integral of {integrand} with respect to {unknown}"
  | .integrated unknown antiderivative =>
    "Integrated polynomial term-wise with the power rule: " ++ antiderivative.render unknown
  | .definite upper lower value =>
    s!"Evaluated definite integral F({Numeral.display upper}) - F({Numeral.display lower})" ++
      s!" = {Numeral.display value}"

/-- The trace that words a list of steps. -/
def Trace.ofSteps (steps : List (Step K)) : Trace := ⟨steps.map Step.text⟩

end SchoolMath
