import SchoolMath.Triangle.Rules

/-!
# `Triangle.Solve` — solving a triangle

The rules are applied once, in their order. What a rule could only find from the result of a later one
stays unknown, and then the measurement is insufficient.
-/

namespace SchoolMath.Triangle

/-- A triangle of which everything is known. -/
structure Solved (K : Type) where
  sides : PerVertex K
  angles : PerVertex K
  perimeter : K
  area : K
deriving Repr

variable {K : Type} [Zero K] [One K] [Add K] [Sub K] [Mul K] [Div K] [Neg K] [NatCast K] [LT K]
  [LE K] [DecidableLT K] [DecidableLE K] [SquareRoot K] [Finiteness K] [Trigonometry K]

/-- All rules in their order. -/
def applyRules (m : Measurement K) : Except (Failure K) (Progress K) := do
  let p ← anglesByCosines (sidesByCosines (completeRightAngle ⟨m, []⟩))
  let p ← anglesBySines p
  return thirdAngle p

/-- The triangle that a complete measurement gives. -/
def Measurement.solved? (m : Measurement K) : Option (Solved K) :=
  match m.sides, m.angles with
  | ⟨some a, some b, some c⟩, ⟨some A, some B, some C⟩ =>
    some ⟨⟨a, b, c⟩, ⟨A, B, C⟩, a + b + c, Triangle.area a b c⟩
  | _, _ => none

/-- The triangle of a measurement, with the steps taken. -/
def Measurement.solve (m : Measurement K) : Except (Failure K) (Solved K × List Step) := do
  m.check
  let p ← applyRules m
  match p.measurement.solved? with
  | some solved => return (solved, p.steps ++ [.perimeterAndArea])
  | none => .error (.insufficient p.measurement.missing)

end SchoolMath.Triangle
