import SchoolMath.Equation.Root
import SchoolMath.Expression.Basic
import SchoolMath.Polynomial.Compile
import SchoolMath.Step

/-!
# `Equation.Solve` — solving one equation

The difference of the sides is expanded as a polynomial in the first variable of the equation. A
linear one has the root `-b/a`; a quadratic one is solved by its discriminant, and falls to the linear
case when the coefficient of the square is zero.
-/

namespace SchoolMath.Equation

variable {K : Type} [Zero K] [One K] [Add K] [Sub K] [Mul K] [Div K] [Neg K] [NatCast K] [BEq K]
  [LT K] [DecidableLT K] [Whole K] [SquareRoot K]

/-- The root of `a·x + b = 0`. -/
def linearRoots (equation : Equation K) (a b : K) : Except (Failure K) (List (Root K) × List (Step K)) :=
  if a == 0 then .error (.degenerate equation.text)
  else .ok ([.real (-b / a)], [.solvedLinear a b])

/-- The roots of `a·x² + b·x + c = 0` by its discriminant, for `a` other than zero. -/
def quadraticFormula (a b discriminant : K) : List (Root K) :=
  if discriminant < 0 then
    let re := -b / (((2 : Nat) : K) * a)
    let im := squareRoot (-discriminant) / (((2 : Nat) : K) * a)
    [.complex re im, .complex re (-im)]
  else
    let root := squareRoot discriminant
    [.real ((-b + root) / (((2 : Nat) : K) * a)), .real ((-b - root) / (((2 : Nat) : K) * a))]

/-- The roots of `a·x² + b·x + c = 0`. -/
def quadraticRoots (equation : Equation K) (a b c : K) :
    Except (Failure K) (List (Root K) × List (Step K)) :=
  if a == 0 then do
    let (roots, steps) ← equation.linearRoots b c
    return (roots, .squareVanished :: steps)
  else
    let discriminant := b * b - ((4 : Nat) : K) * a * c
    .ok (quadraticFormula a b discriminant, [.discriminant discriminant, .quadraticFormula])

/-- The roots of the polynomial with the given coefficients, the constant one first. -/
def rootsOf (equation : Equation K) (coefficients : List K) :
    Except (Failure K) (List (Root K) × List (Step K)) :=
  match coefficients with
  | [b, a] => equation.linearRoots a b
  | [c, b, a] => equation.quadraticRoots a b c
  | _ => .error (.unsupportedDegree (coefficients.length - 1) equation.text)

/-- The roots of an equation in its first variable, with the steps taken. -/
def solve (equation : Equation K) : Except (Failure K) (List (Root K) × List (Step K)) :=
  match equation.unknowns with
  | [] => .error (.noVariables equation.text)
  | unknown :: _ => do
    let difference := equation.asDifference
    let polynomial ← Polynomial.ofTree unknown difference.tree
    let degree := polynomial.degree?.getD 0
    if 2 < degree then
      .error (.unsupportedDegree degree equation.text)
    else
      let (roots, steps) ← equation.rootsOf polynomial.dense
      return (roots, .selected unknown :: .converted difference.text unknown polynomial degree :: steps)

end SchoolMath.Equation
