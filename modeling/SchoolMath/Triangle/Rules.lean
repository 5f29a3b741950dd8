import SchoolMath.Triangle.Measurement
import SchoolMath.Triangle.Step

/-!
# `Triangle.Rules` — the rules that complete a measurement

Each rule adds quantities to a measurement and says which steps it took:

1. `completeRightAngle` finds the side opposite a right angle from the two others;
2. `sidesByCosines` finds the third side from two sides and the angle between them;
3. `anglesByCosines` finds the angles of three sides;
4. `anglesBySines` finds the angle opposite a side from another such pair;
5. `thirdAngle` finds the last angle from two.

A sine or cosine that rounding put a little outside its range is moved to the end of the range.
-/

namespace SchoolMath.Triangle

variable {K : Type} [Zero K] [One K] [Add K] [Sub K] [Mul K] [Div K] [Neg K] [NatCast K] [LT K]
  [LE K] [DecidableLT K] [DecidableLE K] [SquareRoot K] [Finiteness K] [Trigonometry K]

/-! ## Identities -/

/-- How far outside its range a sine or cosine may lie: a ten-millionth. -/
def ratioTolerance : K := 1 / ((10000000 : Nat) : K)

/-- A sine or cosine in its range; fails if it is not finite or too far outside. -/
def unitRatio (ratio : K) : Except (Failure K) K :=
  if !isFinite ratio then .error (.ratioNotFinite ratio)
  else if -1 - ratioTolerance ≤ ratio ∧ ratio ≤ 1 + ratioTolerance then
    .ok (if ratio < -1 then -1 else if 1 < ratio then 1 else ratio)
  else .error (.inconsistentRatio ratio)

/-- The side opposite the angle between the sides `x` and `y`. -/
def sideOpposite (x y included : K) : K :=
  squareRoot (x * x + y * y - ((2 : Nat) : K) * x * y * cosine included)

/-- The angle between the sides `x` and `y`, opposite `z`. -/
def angleBetween (x y z : K) : Except (Failure K) K := do
  return arccosine (← unitRatio ((x * x + y * y - z * z) / (((2 : Nat) : K) * x * y)))

/-- The angle opposite `side`, where `angle` lies opposite `opposite`. -/
def angleOpposite (angle opposite side : K) : Except (Failure K) K := do
  return arcsine (← unitRatio (sine angle * side / opposite))

/-- The area of a triangle with three sides; zero where the formula has no root. -/
def area (a b c : K) : K :=
  let s := (a + b + c) / ((2 : Nat) : K)
  let square := s * (s - a) * (s - b) * (s - c)
  squareRoot (if 0 < square then square else 0)

/-- What two angles leave of the angle sum. -/
def remainingAngle (taken : K) : K := ((180 : Nat) : K) - taken

/-! ## Rules -/

/-- A measurement that a rule has worked on, with the steps taken. -/
structure Progress (K : Type) where
  measurement : Measurement K
  steps : List Step := []

namespace Progress

/-- Sets a side and says how. -/
def learnSide (p : Progress K) (v : Vertex) (length : K) (step : Step) : Progress K :=
  ⟨p.measurement.withSide v length, p.steps ++ [step]⟩

/-- Sets an angle and says how. -/
def learnAngle (p : Progress K) (v : Vertex) (value : K) (step : Step) : Progress K :=
  ⟨p.measurement.withAngle v value, p.steps ++ [step]⟩

end Progress

/-- Finds the side opposite the right angle when the two other sides are known; that side and that angle
are set whatever they were. -/
def completeRightAngle (p : Progress K) : Progress K :=
  match p.measurement.rightAt with
  | none => p
  | some v =>
    let p := { p with steps := p.steps ++ [Step.rightAngle v] }
    let (first, second) := v.others
    match p.measurement.side first, p.measurement.side second with
    | some x, some y =>
      let m := p.measurement.withSide v (hypotenuse x y)
      ⟨m.withAngle v ((90 : Nat) : K), p.steps ++ [Step.pythagoras v]⟩
    | _, _ => p

/-- Finds the side opposite `v`, if it is unknown and the two others and the angle at `v` are known. -/
def sideByCosines (p : Progress K) (v : Vertex) : Progress K :=
  let m := p.measurement
  match m.side v, m.angle v, m.side v.others.1, m.side v.others.2 with
  | none, some included, some x, some y =>
    p.learnSide v (sideOpposite x y included) (.sideByCosines v)
  | _, _, _, _ => p

/-- Finds the third of two sides. -/
def sidesByCosines (p : Progress K) : Progress K :=
  if p.measurement.knownSides ≠ 2 ∨ p.measurement.knownAngles = 0 then p
  else Vertex.all.foldl sideByCosines p

/-- Finds the angle at `v`, if it is unknown: from the two other angles or from the three sides. -/
def angleByCosines (sides : PerVertex K) (p : Progress K) (v : Vertex) :
    Except (Failure K) (Progress K) :=
  let m := p.measurement
  let (first, second) := v.others
  match m.angle v, m.angle first, m.angle second with
  | some _, _, _ => .ok p
  | none, some x, some y => .ok (p.learnAngle v (remainingAngle x - y) (.angleByOthers v))
  | none, _, _ => do
    let value ← angleBetween (sides.get first) (sides.get second) (sides.get v)
    return p.learnAngle v value (.angleByCosines v)

/-- Finds the angles of a triangle whose sides are all known. -/
def anglesByCosines (p : Progress K) : Except (Failure K) (Progress K) :=
  match p.measurement.sides with
  | ⟨some a, some b, some c⟩ => Vertex.all.foldlM (angleByCosines ⟨a, b, c⟩) p
  | _ => .ok p

/-- Finds the angle at `target`, if it is unknown and its side known, from a side and the angle opposite
it. -/
def angleBySines (angle opposite : K) (p : Progress K) (target : Vertex) :
    Except (Failure K) (Progress K) :=
  match p.measurement.angle target, p.measurement.side target with
  | none, some side => do
    return p.learnAngle target (← angleOpposite angle opposite side) (.angleBySines target)
  | _, _ => .ok p

/-- Finds the angles at the two other vertices from the side and the angle at `known`. -/
def anglesBySinesFrom (p : Progress K) (known : Vertex) : Except (Failure K) (Progress K) :=
  match p.measurement.angle known, p.measurement.side known with
  | some angle, some opposite =>
    [known.others.1, known.others.2].foldlM (angleBySines angle opposite) p
  | _, _ => .ok p

/-- Finds angles from pairs of a side and the angle opposite it. -/
def anglesBySines (p : Progress K) : Except (Failure K) (Progress K) :=
  Vertex.all.foldlM anglesBySinesFrom p

/-- Finds the last angle. -/
def thirdAngle (p : Progress K) : Progress K :=
  let m := p.measurement
  if m.knownAngles ≠ 2 then p
  else
    let taken := (Vertex.all.filterMap m.angle).foldl (· + ·) (-0)
    match Vertex.all.find? fun v => (m.angle v).isNone with
    | some v => p.learnAngle v (remainingAngle taken) (.angleBySum v)
    | none => p

end SchoolMath.Triangle
