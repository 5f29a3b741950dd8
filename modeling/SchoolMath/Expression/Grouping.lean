import SchoolMath.Tree.Basic

/-!
# `Expression.Grouping` — the tree of a flat row of operands

A row of operands with operators between them becomes a tree in three passes. Powers bind first and
to the right; the signs before an operand apply to the power that starts there. Products and quotients
come next, and sums and differences last, both from the left.
-/

namespace SchoolMath

/-- An atom with the signs before it, true for a minus. -/
structure Signed (K : Type) where
  signs : List Bool
  atom : Tree K

variable {K : Type}

/-- The tree with signs before it: a plus leaves no trace. -/
def applySigns (signs : List Bool) (tree : Tree K) : Tree K :=
  signs.foldr (fun minus t => if minus then .neg t else t) tree

/-- The first factor of a row, and the operators and factors behind it: powers are taken together. -/
def factors : Signed K → List (Operator × Signed K) → Tree K × List (Operator × Tree K)
  | first, [] => (applySigns first.signs first.atom, [])
  | first, (op, second) :: rest =>
    let (factor, others) := factors second rest
    if op = .power then (applySigns first.signs (.binary .power first.atom factor), others)
    else (applySigns first.signs first.atom, (op, factor) :: others)

/-- The first term of a row that starts with the tree `first`, and the operators and terms behind it:
products and quotients are taken together. -/
def terms (first : Tree K) : List (Operator × Tree K) → Tree K × List (Operator × Tree K)
  | [] => (first, [])
  | (op, second) :: rest =>
    if op = .times ∨ op = .over then terms (.binary op first second) rest
    else
      let (term, others) := terms second rest
      (first, (op, term) :: others)

/-- The tree of a row of terms. -/
def sum (first : Tree K) (rest : List (Operator × Tree K)) : Tree K :=
  rest.foldl (fun tree (op, term) => .binary op tree term) first

/-- The tree of a row of operands. -/
def grouped (first : Signed K) (rest : List (Operator × Signed K)) : Tree K :=
  let (factor, factors) := factors first rest
  let (term, terms) := terms factor factors
  sum term terms

end SchoolMath
