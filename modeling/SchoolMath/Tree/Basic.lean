/-!
# `Tree.Basic` — arithmetic trees

An arithmetic expression is a tree of constants, variables, negations and the five binary operations.
`Tree.unknowns` lists the distinct names in a tree, and `Tree.value?` computes its value where the
names that occur have one; with no names given that folds a constant.
-/

namespace SchoolMath

/-- The binary operations of arithmetic. -/
inductive Operator where
  | plus | minus | times | over | power
deriving DecidableEq, Repr

/-- The result of a binary operation. -/
def Operator.apply {K : Type} [Add K] [Sub K] [Mul K] [Div K] [Pow K K] :
    Operator → K → K → K
  | .plus, x, y => x + y
  | .minus, x, y => x - y
  | .times, x, y => x * y
  | .over, x, y => x / y
  | .power, x, y => x ^ y

/-- An arithmetic expression. -/
inductive Tree (K : Type) where
  | const (value : K)
  | var (name : String)
  | neg (operand : Tree K)
  | binary (op : Operator) (left right : Tree K)
deriving Repr

/-- Puts a name into an ascending list of distinct names. -/
def insertName (name : String) : List String → List String
  | [] => [name]
  | other :: names =>
    if name < other then name :: other :: names
    else if name = other then other :: names
    else other :: insertName name names

/-- The distinct names of a list, in ascending order. -/
def distinctNames (names : List String) : List String := names.foldr insertName []

namespace Tree

variable {K : Type}

/-- The names in the tree from left to right. -/
def names : Tree K → List String
  | .const _ => []
  | .var name => [name]
  | .neg operand => operand.names
  | .binary _ left right => left.names ++ right.names

/-- The distinct names in the tree, in ascending order. -/
def unknowns (tree : Tree K) : List String := distinctNames tree.names

section Value

variable [Add K] [Sub K] [Mul K] [Div K] [Neg K] [Pow K K]

/-- The value of the tree when `given` gives the values of names; none as soon as a name has none. -/
def value? (given : String → Option K) : Tree K → Option K
  | .const value => some value
  | .var name => given name
  | .neg operand => (operand.value? given).map (-·)
  | .binary op left right => do
    let x ← left.value? given
    let y ← right.value? given
    return op.apply x y

/-- The value of a tree without variables. -/
def fold? (tree : Tree K) : Option K := tree.value? fun _ => none

end Value

end Tree

end SchoolMath
