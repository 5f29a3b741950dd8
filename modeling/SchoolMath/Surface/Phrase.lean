/-!
# `Surface.Phrase` — what the surface grammar reads

The surface grammar reads more than arithmetic, so that a construct which is none can be refused by
name. A phrase is read flat: operands with operators between them, signs before and suffixes behind
each operand. Composite parts keep the text they were read from.
-/

namespace SchoolMath.Surface

/-- The operators that stand between two operands. -/
inductive Infix where
  | power | floorDivide | multiply | divide | modulo | matMul | add | subtract
  | shiftLeft | shiftRight | lessEqual | greaterEqual | equal | notEqual | less | greater
  | bitAnd | bitOr | and | or
deriving DecidableEq, Repr

/-- The operators that stand before an operand. -/
inductive Sign where
  | negate | positive | invert | not
deriving DecidableEq, Repr

/-- An operator with the characters that spell it. -/
structure Token (κ : Type) where
  kind : κ
  text : String
deriving DecidableEq, Repr

mutual

/-- Operands with operators between them. -/
inductive Phrase where
  | mk (source : String) (first : Operand) (links : List Link)

/-- An operator and the operand behind it. -/
inductive Link where
  | mk (operator : Token Infix) (operand : Operand)

/-- A primary with the signs before it and the suffixes behind it. -/
inductive Operand where
  | mk (signs : List (Token Sign)) (primary : Primary) (suffixes : List Suffix)

/-- What an operand is without its signs and suffixes. -/
inductive Primary where
  | number (text : String)
  | name (text : String)
  | group (source : String) (inner : Phrase)
  | quoted (text : String)
  | list (source : String) (items : List Phrase)

/-- What may follow a primary. -/
inductive Suffix where
  | call (source : String) (arguments : List Phrase)
  | subscript (source : String) (index : Phrase)
  | member (source : String) (name : String)

end

/-- A whole text: a phrase, or a name that is given one. -/
inductive Statement where
  | assignment (source : String) (name : String) (sign : String) (value : Phrase)
  | phrase (value : Phrase)

/-- The name of an operator's rule. -/
def Infix.rule : Infix → String
  | .power => "Power" | .floorDivide => "FloorDivide" | .multiply => "Multiply"
  | .divide => "Divide" | .modulo => "Modulo" | .matMul => "MatMul" | .add => "Add"
  | .subtract => "Subtract" | .shiftLeft => "ShiftLeft" | .shiftRight => "ShiftRight"
  | .lessEqual => "LessEqual" | .greaterEqual => "GreaterEqual" | .equal => "Equal"
  | .notEqual => "NotEqual" | .less => "Less" | .greater => "Greater" | .bitAnd => "BitAnd"
  | .bitOr => "BitOr" | .and => "And" | .or => "Or"

/-- The name of a sign's rule. -/
def Sign.rule : Sign → String
  | .negate => "Negate" | .positive => "Positive" | .invert => "Invert" | .not => "Not"

end SchoolMath.Surface
