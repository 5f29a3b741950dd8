import SchoolMath.Tree.Basic

/-!
# `Expression.Basic` — expressions, equations and integrals

Each of them keeps the text it was read from beside the tree, so that messages and steps can quote it.
-/

namespace SchoolMath

/-- A tree with the text it was read from. -/
structure Expression (K : Type) where
  text : String
  tree : Tree K
deriving Repr

/-- Two expressions said to be equal. -/
structure Equation (K : Type) where
  left : Expression K
  right : Expression K
deriving Repr

/-- An integral; both bounds make it definite. -/
structure IntegralExpression (K : Type) where
  integrand : Expression K
  /-- The name that the differential gives. -/
  unknown : String
  lower : Option (Expression K)
  upper : Option (Expression K)
deriving Repr

variable {K : Type}

/-- The distinct names in an expression, in ascending order. -/
def Expression.unknowns (expression : Expression K) : List String := expression.tree.unknowns

namespace Equation

/-- The distinct names on both sides, in ascending order. -/
def unknowns (equation : Equation K) : List String :=
  distinctNames (equation.left.tree.names ++ equation.right.tree.names)

/-- Left minus right: the expression whose zeros solve the equation. -/
def asDifference (equation : Equation K) : Expression K where
  text := s!"({equation.left.text})-({equation.right.text})"
  tree := .binary .minus equation.left.tree equation.right.tree

/-- The text of an equation. -/
def text (equation : Equation K) : String := s!"{equation.left.text} = {equation.right.text}"

end Equation

/-- The text of an integral, with the bounds it has. -/
def IntegralExpression.text (integral : IntegralExpression K) : String :=
  let lower := match integral.lower with
    | some bound => s!"_({bound.text})"
    | none => ""
  let upper := match integral.upper with
    | some bound => s!"^({bound.text})"
    | none => ""
  s!"∫{lower}{upper} {integral.integrand.text} d{integral.unknown}"

end SchoolMath
