import SchoolMath.Surface.Phrase
import SchoolMath.Tree.Basic

/-!
# `Expression.Construct` — what is arithmetic and what is not

The surface grammar reads more than arithmetic. A `Construct` is a kind of phrase that is not
arithmetic; the operators are sorted here into the arithmetic ones and the others.
-/

namespace SchoolMath

/-- The kinds of phrases that are not arithmetic. -/
inductive Construct where
  | assignment | call | subscript | member
  | comparison | booleanOperator | bitwiseOperator | arithmeticOperator
  | quotedText | list
deriving DecidableEq, Repr

/-- What a construct is called. -/
def Construct.name : Construct → String
  | .assignment => "assignment"
  | .call => "function call"
  | .subscript => "subscript"
  | .member => "attribute access"
  | .comparison => "comparison"
  | .booleanOperator => "boolean operator"
  | .bitwiseOperator => "bitwise operator"
  | .arithmeticOperator => "arithmetic operator"
  | .quotedText => "string literal"
  | .list => "list literal"

/-- A part of a text that is not arithmetic. -/
structure Refusal where
  construct : Construct
  text : String
deriving DecidableEq, Repr

/-- The arithmetic operation that an operator stands for. -/
def Surface.Infix.operator : Surface.Infix → Except Construct Operator
  | .add => .ok .plus
  | .subtract => .ok .minus
  | .multiply => .ok .times
  | .divide => .ok .over
  | .power => .ok .power
  | .modulo | .floorDivide | .matMul => .error .arithmeticOperator
  | .equal | .notEqual | .less | .lessEqual | .greater | .greaterEqual => .error .comparison
  | .and | .or => .error .booleanOperator
  | .bitAnd | .bitOr | .shiftLeft | .shiftRight => .error .bitwiseOperator

/-- Whether a sign is a minus. -/
def Surface.Sign.isMinus : Surface.Sign → Except Construct Bool
  | .negate => .ok true
  | .positive => .ok false
  | .invert => .error .bitwiseOperator
  | .not => .error .booleanOperator

end SchoolMath
