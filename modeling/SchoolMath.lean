import SchoolMath.Answer
import SchoolMath.CommandLine.Arguments
import SchoolMath.CommandLine.Run
import SchoolMath.Decimal.Binary
import SchoolMath.Decimal.Digits
import SchoolMath.Decimal.Notation
import SchoolMath.Decimal.Read
import SchoolMath.Decimal.Rounded
import SchoolMath.Decimal.Shortest
import SchoolMath.Equation.LinearForm
import SchoolMath.Equation.Root
import SchoolMath.Equation.Solve
import SchoolMath.Equation.System
import SchoolMath.Expression.Basic
import SchoolMath.Expression.Construct
import SchoolMath.Expression.Grouping
import SchoolMath.Expression.Read
import SchoolMath.Failure
import SchoolMath.FormalSum
import SchoolMath.Integral.Integrate
import SchoolMath.Json
import SchoolMath.Latex.Bound
import SchoolMath.Latex.Canonical
import SchoolMath.Latex.Problem
import SchoolMath.Main
import SchoolMath.Number.Basic
import SchoolMath.Number.Double
import SchoolMath.Ocr
import SchoolMath.Polynomial.Basic
import SchoolMath.Polynomial.Compile
import SchoolMath.Polynomial.Text
import SchoolMath.Proofs.Arithmetic.Completeness
import SchoolMath.Proofs.Arithmetic.Derivation
import SchoolMath.Proofs.Arithmetic.Reading
import SchoolMath.Proofs.Arithmetic.Scanner
import SchoolMath.Proofs.Arithmetic.Soundness
import SchoolMath.Proofs.Arithmetic.Spelling
import SchoolMath.Proofs.Arithmetic.Token
import SchoolMath.Proofs.Equation.LinearForm
import SchoolMath.Proofs.Equation.Roots
import SchoolMath.Proofs.Equation.Solve
import SchoolMath.Proofs.Equation.System
import SchoolMath.Proofs.FormalSum
import SchoolMath.Proofs.Integral.Integrate
import SchoolMath.Proofs.Latex.Bound
import SchoolMath.Proofs.Latex.Canonical
import SchoolMath.Proofs.Latex.Integral
import SchoolMath.Proofs.Latex.Problem
import SchoolMath.Proofs.Latex.ProductCommand
import SchoolMath.Proofs.Latex.Projection
import SchoolMath.Proofs.Number.Numeral
import SchoolMath.Proofs.Number.Real
import SchoolMath.Proofs.Outcome
import SchoolMath.Proofs.Polynomial.Antiderivative
import SchoolMath.Proofs.Polynomial.Compile
import SchoolMath.Proofs.Polynomial.Dense
import SchoolMath.Proofs.Polynomial.Value
import SchoolMath.Proofs.Surface.Reading
import SchoolMath.Proofs.Surface.Rules
import SchoolMath.Proofs.Text.Edit
import SchoolMath.Proofs.Tree.Names
import SchoolMath.Proofs.Tree.Text
import SchoolMath.Proofs.Tree.Value
import SchoolMath.Proofs.Triangle.Angles
import SchoolMath.Proofs.Triangle.Consistency
import SchoolMath.Proofs.Triangle.Rules
import SchoolMath.Proofs.Triangle.Solve
import SchoolMath.Step
import SchoolMath.Surface.Attempt
import SchoolMath.Surface.Grammar
import SchoolMath.Surface.Lexeme
import SchoolMath.Surface.Listing
import SchoolMath.Surface.Phrase
import SchoolMath.Text.Blank
import SchoolMath.Text.CharSet
import SchoolMath.Text.LowerCase
import SchoolMath.Text.Position
import SchoolMath.Text.Printable
import SchoolMath.Text.Quoted
import SchoolMath.Text.Replace
import SchoolMath.Text.Word
import SchoolMath.Trace
import SchoolMath.Tree.Basic
import SchoolMath.Tree.Text
import SchoolMath.Triangle.Measurement
import SchoolMath.Triangle.Rules
import SchoolMath.Triangle.Solve
import SchoolMath.Triangle.Step
import SchoolMath.Triangle.Vertex
import SchoolMath.Proofs.Expression.Difference
import SchoolMath.Proofs.Triangle.WellPosed
import SchoolMath.Proofs.Latex.Names
import SchoolMath.Proofs.Number.Whole
import SchoolMath.Proofs.Polynomial.Monomial
import SchoolMath.Proofs.Polynomial.Shown
import SchoolMath.Proofs.Latex.Juxtaposition
import SchoolMath.Proofs.Polynomial.Text
import SchoolMath.Proofs.Polynomial.Support
import SchoolMath.Proofs.Expression.Names
import SchoolMath.Proofs.Latex.Notation
import SchoolMath.Proofs.Triangle.Trace
import SchoolMath.Proofs.Polynomial.Coefficient
import SchoolMath.Proofs.Equation.Linearity
import SchoolMath.Proofs.Equation.Swap
import SchoolMath.Proofs.Decimal.Digits
import SchoolMath.Proofs.Decimal.Layout
import SchoolMath.Proofs.Decimal.Rounded
import SchoolMath.Proofs.Number.Value
import SchoolMath.Proofs.Decimal.Display
import SchoolMath.Proofs.Surface.Machine
import SchoolMath.Proofs.Surface.Course
import SchoolMath.Proofs.Surface.Acceptance
import SchoolMath.Proofs.Surface.Completeness
import SchoolMath.Proofs.Surface.Rejection
import SchoolMath.Proofs.Polynomial.Power
import SchoolMath.Proofs.Latex.MatchingBracket
import SchoolMath.Proofs.Ocr.Clean
