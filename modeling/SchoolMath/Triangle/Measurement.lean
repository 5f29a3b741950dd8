import SchoolMath.Failure

/-!
# `Triangle.Measurement` — what is known of a triangle

A measurement gives some sides and angles, and possibly the vertex of a right angle. Angles are in
degrees.
-/

namespace SchoolMath.Triangle

/-- The vertex that a text names. -/
def Vertex.read {K : Type} (text : String) : Except (Failure K) Vertex :=
  match Vertex.read? text with
  | some v => .ok v
  | none => .error (.unknownVertex (Text.trimmed text))

/-- Sides and angles as far as they are known. -/
structure Measurement (K : Type) where
  sides : PerVertex (Option K) := ⟨none, none, none⟩
  angles : PerVertex (Option K) := ⟨none, none, none⟩
  rightAt : Option Vertex := none
deriving Repr

namespace Measurement

variable {K : Type}

/-- The side opposite a vertex. -/
def side (m : Measurement K) (v : Vertex) : Option K := m.sides.get v

/-- The angle at a vertex. -/
def angle (m : Measurement K) (v : Vertex) : Option K := m.angles.get v

/-- The measurement with a length for the side opposite a vertex. -/
def withSide (m : Measurement K) (v : Vertex) (length : K) : Measurement K :=
  { m with sides := m.sides.set (some length) v }

/-- The measurement with a value for the angle at a vertex. -/
def withAngle (m : Measurement K) (v : Vertex) (value : K) : Measurement K :=
  { m with angles := m.angles.set (some value) v }

/-- How many sides are known. -/
def knownSides (m : Measurement K) : Nat := Vertex.all.countP fun v => (m.side v).isSome

/-- How many angles are known. -/
def knownAngles (m : Measurement K) : Nat := Vertex.all.countP fun v => (m.angle v).isSome

/-- The quantities that are not known, sides first. -/
def missing (m : Measurement K) : List Quantity :=
  (Vertex.all.filter fun v => (m.side v).isNone).map .side ++
    (Vertex.all.filter fun v => (m.angle v).isNone).map .angle

section Check

variable [Zero K] [LT K] [DecidableLT K] [Finiteness K]

/-- Fails unless what is known at a vertex is a positive length and a finite angle. -/
def checkAt (m : Measurement K) (v : Vertex) : Except (Failure K) Unit := do
  if let some length := m.side v then
    if !(isFinite length && 0 < length) then .error (.sideNotPositive v length)
  if let some value := m.angle v then
    if !isFinite value then .error (.angleNotFinite v value)

/-- Fails unless all known sides are positive and finite and all known angles finite. -/
def check (m : Measurement K) : Except (Failure K) Unit := do
  m.checkAt .A
  m.checkAt .B
  m.checkAt .C

end Check

/-- The text of a measurement: sides, angles and the right angle, as far as they are known. -/
def text [Numeral K] (m : Measurement K) : String :=
  let sides := Vertex.all.filterMap fun v =>
    (m.side v).map fun length => s!"{v.sideName} = {Numeral.display length}"
  let angles := Vertex.all.filterMap fun v =>
    (m.angle v).map fun value => s!"{v.name} = {Numeral.display value}°"
  let right := m.rightAt.toList.map fun v => s!"right angle at {v.name}"
  ", ".intercalate (sides ++ angles ++ right)

end Measurement

end SchoolMath.Triangle
