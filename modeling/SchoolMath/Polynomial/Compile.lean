import SchoolMath.Polynomial.Basic

/-!
# `Polynomial.Compile` — the polynomial of a tree

Sums, differences, products and negations of trees become those of polynomials. A power needs a base
that is the variable itself once it is expanded, and an exponent that is a whole constant in range.
-/

namespace SchoolMath

variable {K : Type}

/-- The exponent that a tree writes: a whole constant in range. -/
def Tree.exponent? [Whole K] : Tree K → Option Nat
  | .const value => (Whole.toNat? value).filter (· ≤ exponentLimit)
  | _ => none

namespace Polynomial

variable [Zero K] [One K] [Add K] [Mul K] [Neg K] [BEq K] [Whole K]

/-- The polynomial in `unknown` that a tree denotes. -/
def ofTree (unknown : String) : Tree K → Except (Failure K) (Polynomial K)
  | .const value => .ok (constant value)
  | .var name => if name = unknown then .ok identity else .error (.unboundVariable name)
  | .neg operand => do return (← ofTree unknown operand).negate
  | .binary .plus left right => do
    let p ← ofTree unknown left
    let q ← ofTree unknown right
    return p.add q
  | .binary .minus left right => do
    let p ← ofTree unknown left
    let q ← ofTree unknown right
    return p.add q.negate
  | .binary .times left right => do
    let p ← ofTree unknown left
    let q ← ofTree unknown right
    p.multiply q
  | .binary .over left right => .error (.division (.binary .over left right))
  | .binary .power left right => do
    let base ← ofTree unknown left
    if !base.isIdentity then
      .error (.powerOfNonVariable (.binary .power left right))
    else match right.exponent? with
      | none => .error (.exponentNotWhole (.binary .power left right))
      | some n => base.power n

end Polynomial

end SchoolMath
