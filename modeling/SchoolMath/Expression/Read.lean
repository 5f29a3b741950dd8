import SchoolMath.Expression.Basic
import SchoolMath.Expression.Grouping
import SchoolMath.Failure
import SchoolMath.Surface.Grammar

/-!
# `Expression.Read` — reading expressions

A text is read by the surface grammar; then its phrase is turned into a tree, which fails at the first
part that is not arithmetic. So a failure is either a text that is no phrase at all or a refusal that
names the construct.
-/

namespace SchoolMath

open Surface

variable {K : Type} [Numeral K]

/-- Names a part of a text as a construct that is not arithmetic. -/
def refuse {α : Type} (construct : Construct) (text : String) : Except Refusal α :=
  .error ⟨construct, text⟩

/-- The signs before an operand, true for a minus. -/
def signsOf : List (Token Sign) → Except Refusal (List Bool)
  | [] => .ok []
  | sign :: signs => do
    let minus ← sign.kind.isMinus.mapError (⟨·, sign.text⟩)
    return minus :: (← signsOf signs)

/-- Refuses an operand with suffixes: none is arithmetic. -/
def noSuffix : List Suffix → Except Refusal Unit
  | [] => .ok ()
  | .call source _ :: _ => refuse .call source
  | .subscript source _ :: _ => refuse .subscript source
  | .member source _ :: _ => refuse .member source

mutual

/-- The tree of a phrase. -/
def Surface.Phrase.tree : Phrase → Except Refusal (Tree K)
  | .mk _ first links => do
    let first ← first.signed
    return grouped first (← rowOf links)

/-- The operators and operands of a phrase after the first. -/
def rowOf : List Link → Except Refusal (List (Operator × Signed K))
  | [] => .ok []
  | .mk operator operand :: links => do
    let op ← operator.kind.operator.mapError (⟨·, operator.text⟩)
    let signed ← operand.signed
    return (op, signed) :: (← rowOf links)

/-- The signs and the atom of an operand. -/
def Surface.Operand.signed : Operand → Except Refusal (Signed K)
  | .mk signs primary suffixes => do
    let signs ← signsOf signs
    let atom ← primary.atom
    noSuffix suffixes
    return ⟨signs, atom⟩

/-- The tree of a primary. -/
def Surface.Primary.atom : Primary → Except Refusal (Tree K)
  | .number text => .ok (.const (Numeral.read text))
  | .name text => .ok (.var text)
  | .group _ inner => inner.tree
  | .quoted text => refuse .quotedText text
  | .list source _ => refuse .list source

end

/-- The tree of a statement that is a phrase. -/
def Surface.Statement.tree : Statement → Except Refusal (Tree K)
  | .assignment source _ _ _ => refuse .assignment source
  | .phrase value => value.tree

/-- The expression that a text writes. -/
def Expression.read (text : String) : Except (Failure K) (Expression K) :=
  match Surface.parse text with
  | .error offset => .error (.unreadable text offset)
  | .ok statement => (statement.tree.mapError .notArithmetic).map (⟨text, ·⟩)

/-- The equation between two texts, the left one read first. -/
def Equation.read (left right : String) : Except (Failure K) (Equation K) := do
  return ⟨← Expression.read left, ← Expression.read right⟩

end SchoolMath
