import SchoolMath.Tree.Basic
import SchoolMath.Number.Basic

/-!
# `Tree.Text` — the text of a tree

A tree is written with as few parentheses as its shape allows. Each tree has a rank, and an operand
stands in parentheses when its rank is too low for its place: a power groups to the right, the other
operations group to the left. A negative constant ranks as a negation.
-/

namespace SchoolMath

/-- The characters of an operation. -/
def Operator.symbol : Operator → String
  | .plus => "+"
  | .minus => "-"
  | .times => "*"
  | .over => "/"
  | .power => "**"

/-- How strongly an operation binds. -/
def Operator.rank : Operator → Nat
  | .plus | .minus => 1
  | .times | .over => 2
  | .power => 4

/-- How strongly a negation binds. -/
def negationRank : Nat := 3

namespace Tree

variable {K : Type} [Numeral K] [Zero K] [LT K] [DecidableLT K]

/-- How strongly the outermost operation of a tree binds. -/
def rank : Tree K → Nat
  | .const value => if value < 0 then negationRank else 5
  | .var _ => 5
  | .neg _ => negationRank
  | .binary op _ _ => op.rank

/-- Characters in parentheses if `needed`. -/
def parenthesized (needed : Bool) (text : List Char) : List Char :=
  if needed then '(' :: text ++ [')'] else text

/-- The characters of a tree. -/
def chars : Tree K → List Char
  | .const value => (Numeral.write value).toList
  | .var name => name.toList
  | .neg operand => '-' :: parenthesized (operand.rank < negationRank) operand.chars
  | .binary op left right =>
    let leftNeeds := if op = .power then left.rank ≤ op.rank else left.rank < op.rank
    let rightNeeds := if op = .power then right.rank < op.rank else right.rank ≤ op.rank
    parenthesized leftNeeds left.chars ++ op.symbol.toList ++ parenthesized rightNeeds right.chars

/-- The text of a tree. -/
def text (tree : Tree K) : String := String.ofList tree.chars

end Tree

end SchoolMath
