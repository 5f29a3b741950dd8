import SchoolMath.Trace
import SchoolMath.Triangle.Vertex

/-!
# `Triangle.Step` — the steps of solving a triangle
-/

namespace SchoolMath.Triangle

/-- What a rule did. -/
inductive Step where
  | rightAngle (vertex : Vertex)
  | pythagoras (opposite : Vertex)
  | sideByCosines (opposite : Vertex)
  /-- The third angle of a triangle whose sides are all known. -/
  | angleByOthers (vertex : Vertex)
  | angleByCosines (vertex : Vertex)
  | angleBySines (vertex : Vertex)
  | angleBySum (vertex : Vertex)
  | perimeterAndArea
deriving DecidableEq, Repr

/-- The wording of a step. -/
def Step.text : Step → String
  | .rightAngle v => s!"Detected right angle at {v.name}"
  | .pythagoras v => s!"Used Pythagoras to compute {v.sideName}"
  | .sideByCosines v => s!"Law of Cosines to compute side {v.sideName}"
  | .angleByOthers v => s!"Used angle sum to compute {v.name}"
  | .angleByCosines v => s!"Law of Cosines to compute angle {v.name}"
  | .angleBySines v => s!"Law of Sines to compute {v.name}"
  | .angleBySum v => s!"Angle sum to compute {v.name}"
  | .perimeterAndArea => "Computed perimeter and area via Heron's formula"

/-- The trace that words a list of steps. -/
def traceOf (steps : List Step) : Trace := ⟨steps.map Step.text⟩

end SchoolMath.Triangle
