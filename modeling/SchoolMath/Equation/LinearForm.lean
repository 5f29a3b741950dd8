import SchoolMath.Failure
import SchoolMath.FormalSum

/-!
# `Equation.LinearForm` — linear forms in any number of variables

A linear form is a formal sum with names as keys, and a constant. A product is a linear form when one
factor has no variable in it.
-/

namespace SchoolMath

/-- Coefficients of variables, and a constant. -/
structure LinearForm (K : Type) where
  coefficients : FormalSum String K
  constant : K

namespace LinearForm

variable {K : Type} [Zero K] [One K] [Add K] [Mul K] [Neg K]

/-- A constant. -/
def ofConstant (c : K) : LinearForm K := ⟨.empty, c⟩

/-- A variable. -/
def ofName (name : String) : LinearForm K := ⟨⟨[(name, 1)], List.pairwise_singleton _ _⟩, 0⟩

/-- Whether no variable occurs, not even with the coefficient zero. -/
def isConstant (form : LinearForm K) : Bool := form.coefficients.terms.isEmpty

/-- The form times a number. -/
def scale (form : LinearForm K) (factor : K) : LinearForm K :=
  ⟨form.coefficients.mapCoefficients (· * factor), form.constant * factor⟩

/-- The first form plus `sign` times the second. -/
def addScaled (form : LinearForm K) (sign : K) (other : LinearForm K) : LinearForm K :=
  ⟨form.coefficients.add (other.coefficients.mapCoefficients (sign * ·)),
    form.constant + sign * other.constant⟩

/-- The linear form that a tree denotes. -/
def ofTree : Tree K → Except (Failure K) (LinearForm K)
  | .const value => .ok (ofConstant value)
  | .var name => .ok (ofName name)
  | .neg operand => do return (← ofTree operand).scale (-1)
  | .binary .plus left right => do
    let first ← ofTree left
    let second ← ofTree right
    return first.addScaled 1 second
  | .binary .minus left right => do
    let first ← ofTree left
    let second ← ofTree right
    return first.addScaled (-1) second
  | .binary .times left right => do
    let first ← ofTree left
    let second ← ofTree right
    if first.isConstant then return second.scale first.constant
    else if second.isConstant then return first.scale second.constant
    else .error (.notLinear (.binary .times left right))
  | .binary .over left right => .error (.notLinear (.binary .over left right))
  | .binary .power left right => .error (.notLinear (.binary .power left right))

end LinearForm

end SchoolMath
