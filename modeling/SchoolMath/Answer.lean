import SchoolMath.Equation.System
import SchoolMath.Integral.Integrate
import SchoolMath.Latex.Problem
import SchoolMath.Number.Double
import SchoolMath.Triangle.Solve

/-!
# `Answer` — answers ready to be shown

An answer has the result in LaTeX, the steps that led to it and, where there is one, a single number.
Expressions are evaluated or expanded, equations and systems solved, integrals integrated and triangles
completed.
-/

namespace SchoolMath

open Triangle (Vertex Measurement)

/-- What an answer is about. -/
inductive AnswerKind where
  | expression | equation | system | integral | triangle
deriving DecidableEq, Repr

/-- The word for a kind of answer. -/
def AnswerKind.name : AnswerKind → String
  | .expression => "expr"
  | .equation => "equation"
  | .system => "system"
  | .integral => "integral"
  | .triangle => "triangle"

/-- A result as it is shown. -/
structure Answer where
  /-- The question as it was asked. -/
  prompt : String
  kind : AnswerKind
  latex : String
  trace : Trace
  numeric : Option Float
deriving Repr

namespace Answer

/-- A row of equations in LaTeX. -/
def joinLatex (parts : List String) : String := ", \\quad ".intercalate parts

/-- The roots of an equation in LaTeX. -/
def rootsLatex (unknown : String) (roots : List (Root Float)) : String :=
  joinLatex (roots.map fun root => s!"{unknown} = {root.text}")

/-- The value of the only root, if it is the only one and real. -/
def onlyRoot? : List (Root Float) → Option Float
  | [root] => root.real?
  | _ => none

/-- The value of an expression without variables, or its expansion in its first variable. -/
def ofExpression (prompt : String) (expression : Expression Float) :
    Except (Failure Float) Answer :=
  match expression.tree.fold? with
  | some value =>
    .ok ⟨prompt, .expression, Numeral.display value,
      .ofSteps [.evaluated expression.text value], some value⟩
  | none =>
    match expression.unknowns with
    | [] => .error (.noVariables expression.text)
    | unknown :: _ => do
      let polynomial ← Polynomial.ofTree unknown expression.tree
      return ⟨prompt, .expression, polynomial.latex unknown,
        .ofSteps [.expanded expression.text unknown polynomial], none⟩

/-- The roots of an equation. -/
def ofEquation (prompt : String) (equation : Equation Float) : Except (Failure Float) Answer := do
  let (roots, steps) ← equation.solve
  match equation.unknowns with
  | [] => .error (.noVariables equation.text)
  | unknown :: _ =>
    return ⟨prompt, .equation, rootsLatex unknown roots, .ofSteps steps, onlyRoot? roots⟩

/-- The value of a definite integral, or the antiderivative. -/
def ofIntegral (prompt : String) (integral : IntegralExpression Float) :
    Except (Failure Float) Answer := do
  let solution ← integral.integrate
  let latex := match solution.value with
    | some value => Numeral.display value
    | none => solution.antiderivative.latex integral.unknown ++ " + C"
  return ⟨prompt, .integral, latex, .ofSteps solution.steps, solution.value⟩

/-- The answer to the problem that a LaTeX text states. -/
def ofLatex (latex : String) : Except (Failure Float) Answer := do
  let prompt := Text.trimmed latex
  match ← Problem.read latex with
  | .expression expression => ofExpression prompt expression
  | .equation equation => ofEquation prompt equation
  | .integral integral => ofIntegral prompt integral

/-- The equation that a LaTeX text states. -/
def readEquation (latex : String) : Except (Failure Float) (Equation Float) := do
  match ← Problem.read latex with
  | .equation equation => return equation
  | _ => .error (.notAnEquation (Text.trimmed latex))

/-- The answer to a system with one LaTeX equation in each text. -/
def ofSystem (texts : List String) : Except (Failure Float) Answer := do
  let equations ← texts.mapM readEquation
  let (solution, steps) ← Equation.solveSystem equations
  let prompt := ", ".intercalate (texts.map Text.trimmed)
  match solution with
  | .roots unknown roots =>
    return ⟨prompt, .system, rootsLatex unknown roots, .ofSteps steps, onlyRoot? roots⟩
  | .assignment values =>
    let latex := joinLatex (values.map fun (name, value) => s!"{name} = {Numeral.display value}")
    return ⟨prompt, .system, latex, .ofSteps steps, none⟩

/-- The triangle of a measurement; the number is its area. -/
def ofMeasurement (measurement : Measurement Float) : Except (Failure Float) Answer := do
  let (solved, steps) ← measurement.solve
  let sides := Vertex.all.map fun v => s!"{v.sideName} = {Numeral.display (solved.sides.get v)}"
  let angles := Vertex.all.map fun v =>
    s!"{v.name} = {Numeral.display (solved.angles.get v)}^\\circ"
  let sizes := [s!"P = {Numeral.display solved.perimeter}", s!"S = {Numeral.display solved.area}"]
  return ⟨measurement.text, .triangle, joinLatex (sides ++ angles ++ sizes),
    Triangle.traceOf steps, some solved.area⟩

end Answer

end SchoolMath
