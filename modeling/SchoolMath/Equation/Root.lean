import SchoolMath.Number.Basic

/-!
# `Equation.Root` — the roots of an equation
-/

namespace SchoolMath

/-- A root: a real number, or `re + im·i`. -/
inductive Root (K : Type) where
  | real (value : K)
  | complex (re im : K)
deriving Repr

variable {K : Type}

/-- The value of a real root. -/
def Root.real? : Root K → Option K
  | .real value => some value
  | .complex _ _ => none

/-- The text of a root, a complex one as the sum of its parts. -/
def Root.text [Zero K] [Neg K] [LT K] [DecidableLT K] [Numeral K] : Root K → String
  | .real value => Numeral.display value
  | .complex re im =>
    if im < 0 then s!"{Numeral.display re} - {Numeral.display (-im)}i"
    else s!"{Numeral.display re} + {Numeral.display im}i"

end SchoolMath
