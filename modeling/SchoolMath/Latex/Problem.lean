import SchoolMath.Expression.Read
import SchoolMath.Latex.Bound
import SchoolMath.Latex.Canonical

/-!
# `Latex.Problem` — the problem that a LaTeX text states

A text that starts with `\int` is an integral, a text with `=` outside all brackets is an equation, and
any other text is an expression. The parts are canonicalised one by one and read as expressions.
-/

namespace SchoolMath

/-- What a text asks about. -/
inductive Problem (K : Type) where
  | expression (expression : Expression K)
  | equation (equation : Equation K)
  | integral (integral : IntegralExpression K)

/-- The word for a kind of problem. -/
def Problem.kind {K : Type} : Problem K → String
  | .expression _ => "expr"
  | .equation _ => "equation"
  | .integral _ => "integral"

namespace Latex

variable {K : Type}

/-- The change of depth that a character makes when brackets of all kinds are counted alike. -/
def depthChange (c : Char) : Int :=
  if c = '(' ∨ c = '\x7b' ∨ c = '[' then 1
  else if c = ')' ∨ c = '\x7d' ∨ c = ']' then -1
  else 0

/-- The texts on both sides of the first `=` at depth zero. -/
def splitAtEquals (depth : Int) : List Char → Option (List Char × List Char)
  | [] => none
  | c :: cs =>
    if c = '=' ∧ depth = 0 then some ([], cs)
    else (splitAtEquals (depth + depthChange c) cs).map fun (left, right) => (c :: left, right)

/-- The parts of an integral, before any of them is read. -/
structure IntegralParts where
  integrand : List Char
  unknown : List Char
  lower : Option (List Char)
  upper : Option (List Char)
deriving DecidableEq, Repr

/-- The bound behind the character `mark` and the text behind it; no bound and the whole text if the
character is another. -/
def markedBound (mark : Char) (text : List Char) :
    Except (Failure K) (Option (List Char) × List Char) :=
  match text with
  | c :: cs =>
    if c = mark then
      match splitBound? cs with
      | some (bound, rest) => .ok (some bound, rest)
      | none => .error (.unbalancedBound (String.ofList cs))
    else .ok (none, text)
  | [] => .ok (none, [])

/-- The name that a differential gives: without blanks around it and without one backslash. -/
def differentialName (text : List Char) : List Char :=
  match Text.trim text with
  | '\\' :: name => Text.trim name
  | name => name

/-- The parts of the text behind `\int`: an optional lower and an optional upper bound in this order,
then the integrand up to the first `d`, which is taken for the differential. -/
def splitIntegral (body : List Char) : Except (Failure K) IntegralParts := do
  let (lower, rest) ← markedBound '_' (Text.trimStart body)
  let (upper, rest) ← match lower with
    | some _ => markedBound '^' rest
    | none => .ok (none, rest)
  let (upper, rest) ← match upper with
    | some _ => .ok (upper, rest)
    | none => markedBound '^' (Text.trimStart rest)
  let rest := Text.trimStart rest
  match rest.dropWhile (· != 'd') with
  | [] => .error (.missingDifferential (String.ofList body))
  | _ :: differential =>
    match differentialName differential with
    | [] => .error (.missingVariable (String.ofList body))
    | unknown => .ok ⟨rest.takeWhile (· != 'd'), unknown, lower, upper⟩

variable [Numeral K]

/-- The expression that a fragment writes. -/
def readFragment (fragment : List Char) : Except (Failure K) (Expression K) :=
  Expression.read (String.ofList (canonicalChars fragment))

/-- The expression that a bound writes; an empty bound is none. -/
def readBound : Option (List Char) → Except (Failure K) (Option (Expression K))
  | none | some [] => .ok none
  | some bound => do return some (← readFragment bound)

/-- The integral whose parts are given. -/
def IntegralParts.read (parts : IntegralParts) : Except (Failure K) (IntegralExpression K) := do
  let integrand ← readFragment parts.integrand
  let lower ← readBound parts.lower
  let upper ← readBound parts.upper
  return ⟨integrand, String.ofList parts.unknown, lower, upper⟩

/-- The word that starts an integral. -/
def integralMark : List Char := ['\\', 'i', 'n', 't']

/-- The problem that a text without blanks around it states. -/
def readTrimmed (text : List Char) : Except (Failure K) (Problem K) :=
  if text.isEmpty then .error .emptyInput
  else if integralMark.isPrefixOf text then do
    let parts ← splitIntegral (text.drop integralMark.length)
    return .integral (← parts.read)
  else match splitAtEquals 0 text with
    | some (left, right) => do return .equation ⟨← readFragment left, ← readFragment right⟩
    | none => do return .expression (← readFragment text)

end Latex

/-- The problem that a LaTeX text states. -/
def Problem.read {K : Type} [Numeral K] (latex : String) : Except (Failure K) (Problem K) :=
  Latex.readTrimmed (Text.trim latex.toList)

end SchoolMath
