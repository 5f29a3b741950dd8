import SchoolMath.Failure
import SchoolMath.FormalSum

/-!
# `Polynomial.Basic` — polynomials in one variable

A polynomial is a formal sum with exponents as keys. Exponents stay below `2 ^ 32`; an operation that
would leave that range fails with the first pair of exponents that does. A term whose coefficient
cancelled to zero is kept and counts for the degree.
-/

namespace SchoolMath

/-- A polynomial in one variable: exponents with their coefficients. -/
abbrev Polynomial (K : Type) := FormalSum Nat K

/-- The largest exponent. -/
def exponentLimit : Nat := 4294967295

/-- The sum of two exponents, if it is in range. -/
def addExponents {K : Type} (m n : Nat) : Except (Failure K) Nat :=
  if m + n ≤ exponentLimit then .ok (m + n) else .error (.exponentRange m n)

namespace Polynomial

variable {K : Type}

/-- The constant polynomial. -/
def constant [Zero K] [Add K] (c : K) : Polynomial K := FormalSum.ofTerms [(0, c)]

/-- The variable itself. -/
def identity [Zero K] [Add K] [One K] : Polynomial K := FormalSum.ofTerms [(1, 1)]

/-- The largest exponent, also if its coefficient is zero. -/
def degree? (p : Polynomial K) : Option Nat := p.keys.getLast?

/-- Whether the polynomial is the variable itself. -/
def isIdentity [BEq K] [One K] (p : Polynomial K) : Bool :=
  match p.terms with
  | [(1, c)] => c == 1
  | _ => false

/-- The polynomial with all signs changed. -/
def negate [Neg K] (p : Polynomial K) : Polynomial K := p.mapCoefficients (-·)

/-- The coefficients from exponent zero up to the degree. -/
def dense [Zero K] (p : Polynomial K) : List K :=
  match p.degree? with
  | none => []
  | some degree => (List.range (degree + 1)).map p.coefficient

/-- The pairs of a term of `p` and a term of `q`, the terms of `p` outermost. -/
def termPairs (p q : Polynomial K) : List ((Nat × K) × (Nat × K)) :=
  p.terms.flatMap fun s => q.terms.map fun t => (s, t)

section Product

variable [Zero K] [Add K] [Mul K]

/-- The product: each pair of terms adds its product at the sum of its exponents. -/
def multiply (p q : Polynomial K) : Except (Failure K) (Polynomial K) :=
  (termPairs p q).foldlM (fun r (s, t) => do return r.addTerm (← addExponents s.1 t.1) (s.2 * t.2))
    FormalSum.empty

/-- `acc` times the `n`-th power of `base` by repeated squaring. The last square is not computed, since
its exponents might be out of range where those of the result are not. -/
def multiplyPower (acc base : Polynomial K) (n : Nat) : Except (Failure K) (Polynomial K) :=
  if n = 0 then .ok acc
  else do
    let acc ← if n % 2 = 1 then acc.multiply base else .ok acc
    if n / 2 = 0 then .ok acc else acc.multiplyPower (← base.multiply base) (n / 2)
termination_by n
decreasing_by omega

/-- The `n`-th power. -/
def power [One K] (p : Polynomial K) (n : Nat) : Except (Failure K) (Polynomial K) :=
  (constant 1).multiplyPower p n

end Product

/-- The value at `x`: the terms are summed from the least exponent up. -/
def evaluate [Zero K] [Add K] [Mul K] [Neg K] [Pow K Nat] (p : Polynomial K) (x : K) : K :=
  p.terms.foldl (fun total t => total + t.2 * x ^ t.1) (-0)

/-- The antiderivative without constant term: the coefficient at `n` divided by `n + 1` goes to
`n + 1`. -/
def antiderivative [Zero K] [Add K] [Div K] [NatCast K] (p : Polynomial K) :
    Except (Failure K) (Polynomial K) := do
  let terms ← p.terms.mapM fun t => do
    let raised ← addExponents t.1 1
    return (raised, t.2 / (raised : K))
  return FormalSum.ofTerms terms

end Polynomial

end SchoolMath
