import SchoolMath.Expression.Construct
import SchoolMath.Text.Position
import SchoolMath.Text.Quoted
import SchoolMath.Tree.Text
import SchoolMath.Triangle.Vertex

/-!
# `Failure` — why a request has no answer

A failure is a cause with what it concerns; `Failure.message` is the only place that words it.
-/

namespace SchoolMath

open Triangle (Vertex Quantity)

/-- The causes for which a request has no answer. -/
inductive Failure (K : Type) where
  /-- The text is no statement; `offset` characters of it could be read. -/
  | unreadable (text : String) (offset : Nat)
  | emptyInput
  /-- A part of the text is not arithmetic. -/
  | notArithmetic (refusal : Refusal)
  | unboundVariable (name : String)
  /-- A quotient in an expression to be expanded. -/
  | division (tree : Tree K)
  /-- A power of something else than the variable. -/
  | powerOfNonVariable (tree : Tree K)
  /-- A power whose exponent is no whole constant. -/
  | exponentNotWhole (tree : Tree K)
  /-- The sum of two exponents is too large. -/
  | exponentRange (left right : Nat)
  /-- Something else where an equation is asked for. -/
  | notAnEquation (text : String)
  | noVariables (text : String)
  /-- A linear equation whose variable has the coefficient zero. -/
  | degenerate (equation : String)
  | unsupportedDegree (degree : Nat) (equation : String)
  | notLinear (tree : Tree K)
  | singularSystem (equations : String)
  | systemShape (equations unknowns : Nat)
  | boundNotConstant (text : String)
  | unbalancedBound (text : String)
  | missingDifferential (text : String)
  | missingVariable (text : String)
  /-- A sine or cosine too far outside its range. -/
  | inconsistentRatio (ratio : K)
  | ratioNotFinite (ratio : K)
  | unknownVertex (text : String)
  | sideNotPositive (opposite : Vertex) (length : K)
  | angleNotFinite (vertex : Vertex) (angle : K)
  | insufficient (missing : List Quantity)

variable {K : Type} [Numeral K] [Zero K] [LT K] [DecidableLT K]

/-- What is said about an expression that cannot be treated. -/
def unsupportedMessage (reason : String) : String := "Unsupported expression: " ++ reason

/-- What is said about a measurement that no triangle has. -/
def measurementMessage (reason : String) : String := "Invalid triangle measurement: " ++ reason

/-- The wording of a failure. -/
def Failure.message : Failure K → String
  | .unreadable text offset => s!"Parse error:  --> {(Text.Position.ofOffset text offset).text}"
  | .emptyInput => "Empty input"
  | .notArithmetic refusal =>
    s!"Unsupported syntax in expression: {refusal.construct.name} `{refusal.text}`"
  | .unboundVariable name => s!"Unexpected variable {name}"
  | .division tree => unsupportedMessage s!"division is not polynomial: {tree.text}"
  | .powerOfNonVariable tree =>
    unsupportedMessage s!"power only supported on pure variable: {tree.text}"
  | .exponentNotWhole tree =>
    unsupportedMessage s!"exponent must be a non-negative integer constant: {tree.text}"
  | .exponentRange left right => unsupportedMessage s!"exponent {left} + {right} is out of range"
  | .notAnEquation text => unsupportedMessage s!"expected an equation: {text}"
  | .noVariables text => s!"Equation has no variables: {text}"
  | .degenerate equation => s!"Degenerate linear equation: {equation}"
  | .unsupportedDegree degree equation => s!"Polynomial degree {degree} not supported: {equation}"
  | .notLinear tree => s!"Equation is not linear: {tree.text}"
  | .singularSystem equations => s!"System determinant is zero: {equations}"
  | .systemShape equations unknowns =>
    s!"Unsupported system shape: {equations} equation(s) in {unknowns} variable(s)"
  | .boundNotConstant text => s!"Integral bounds must be numeric constants: {text}"
  | .unbalancedBound text => s!"Unbalanced delimiters in integral bounds: {text}"
  | .missingDifferential text => s!"Integral missing differential: {text}"
  | .missingVariable text => s!"Could not determine integration variable: {text}"
  | .inconsistentRatio ratio =>
    s!"Inconsistent measurements for law of sines (ratio {Numeral.write ratio})"
  | .ratioNotFinite ratio => measurementMessage s!"non-finite ratio {Numeral.write ratio}"
  | .unknownVertex text => measurementMessage s!"unknown vertex {Text.quoted text}"
  | .sideNotPositive opposite length =>
    measurementMessage
      s!"side {opposite.sideName} must be a positive length, got {Numeral.write length}"
  | .angleNotFinite vertex angle =>
    measurementMessage s!"angle {vertex.name} must be finite, got {Numeral.write angle}"
  | .insufficient missing =>
    let names := ", ".intercalate (missing.map (·.name))
    s!"Insufficient information to solve triangle (missing {names})"

end SchoolMath
