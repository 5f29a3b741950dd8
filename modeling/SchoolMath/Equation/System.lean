import SchoolMath.Equation.LinearForm
import SchoolMath.Equation.Solve

/-!
# `Equation.System` — solving systems of equations

A system has as many equations as variables: one equation is solved as such, two linear equations in
two variables by determinants.
-/

namespace SchoolMath

/-- The answer to a system. -/
inductive Solution (K : Type) where
  /-- The roots of a single equation. -/
  | roots (unknown : String) (roots : List (Root K))
  /-- The values of two variables, in ascending order of their names. -/
  | assignment (values : List (String × K))

namespace Equation

variable {K : Type} [Zero K] [One K] [Add K] [Sub K] [Mul K] [Div K] [Neg K] [NatCast K] [BEq K]
  [LT K] [DecidableLT K] [Whole K] [SquareRoot K]

/-- The text of a system. -/
def systemText (equations : List (Equation K)) : String := "; ".intercalate (equations.map (·.text))

/-- The distinct names in a system, in ascending order. -/
def systemUnknowns (equations : List (Equation K)) : List String :=
  distinctNames (equations.flatMap fun e => e.left.tree.names ++ e.right.tree.names)

/-- An equation `a·x + a'·y = b` as `(a, a', b)`. -/
def row (x y : String) (equation : Equation K) : Except (Failure K) (K × K × K) := do
  let form ← LinearForm.ofTree equation.asDifference.tree
  return (form.coefficients.coefficient x, form.coefficients.coefficient y, -form.constant)

/-- The solution of two linear equations in `x` and `y` by determinants. -/
def solvePair (first second : Equation K) (x y : String) :
    Except (Failure K) (Solution K × List (Step K)) := do
  let (a₁₁, a₁₂, b₁) ← first.row x y
  let (a₂₁, a₂₂, b₂) ← second.row x y
  let determinant := a₁₁ * a₂₂ - a₁₂ * a₂₁
  if determinant == 0 then .error (.singularSystem (systemText [first, second]))
  else
    return (.assignment [(x, (b₁ * a₂₂ - a₁₂ * b₂) / determinant),
        (y, (a₁₁ * b₂ - b₁ * a₂₁) / determinant)],
      [.linearSystem a₁₁ a₁₂ a₂₁ a₂₂ x y b₁ b₂, .cramer determinant])

/-- The solution of a system, with the steps taken. -/
def solveSystem (equations : List (Equation K)) : Except (Failure K) (Solution K × List (Step K)) :=
  match systemUnknowns equations, equations with
  | [], _ => .error (.noVariables (systemText equations))
  | [x], [equation] => do
    let (roots, steps) ← equation.solve
    return (.roots x roots, steps)
  | [x, y], [first, second] => solvePair first second x y
  | unknowns, _ => .error (.systemShape equations.length unknowns.length)

end Equation

end SchoolMath
