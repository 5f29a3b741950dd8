import SchoolMath.Text.Blank
import SchoolMath.Text.Replace

/-!
# `Latex.Canonical` — the canonical text of a LaTeX fragment

LaTeX leaves products to juxtaposition and groups with braces. The canonical text spells every product
with `*` and every power with `**`, groups with parentheses only and holds no blanks, so that the
grammar of expressions can read it: `x^2 - 5 x + 6` becomes `x**2-5*x+6`.
-/

namespace SchoolMath.Latex

/-- Spacing commands, sizing commands, braces and the signs of products, in the order in which they are
replaced. -/
def respellings : List (String × String) := [
  ("\\,", " "), ("\\!", " "), ("\\left", ""), ("\\right", ""),
  ("\x7b", "("), ("\x7d", ")"), ("\\cdot", "*"), ("\\times", "*")]

/-- What kind of token a character starts. -/
inductive Kind where
  | number | word | closing | other
deriving DecidableEq, Repr

/-- The kind of token that `c` starts. -/
def Kind.of (c : Char) : Kind :=
  if c.isDigit || c == '.' then .number
  else if c.isAlpha || c == '_' then .word
  else if c == ')' then .closing
  else .other

/-- Whether `c`, directly behind a token of a kind, is part of that token. -/
def Kind.goesOnWith : Kind → Char → Bool
  | .word, c => c.isAlphanum || c == '_'
  | .number, c => c.isDigit || c == '.'
  | _, _ => false

/-- Whether an operand ends with a token of this kind. -/
def Kind.endsOperand : Kind → Bool
  | .other => false
  | _ => true

/-- Whether `c` starts an operand in front of which the sign of a product may be left out: a name that
starts with a letter, or a group in parentheses. Names that start with an underscore are not among them,
and neither are numbers. -/
def startsOperand (c : Char) : Bool := c.isAlpha || c == '('

/-- The text with every product spelled, behind a token of the kind `previous` and, if `gap`, blanks. A
letter that starts a name or an opening parenthesis behind the end of an operand makes a product. An
underscore and digits do not, so without the blanks in front of them they are joined to what stands
there: `x _y` becomes the name `x_y`, and `1 2` the number `12`. -/
def spellProducts (previous : Kind) (gap : Bool) : List Char → List Char
  | [] => []
  | c :: cs =>
    if Text.isBlank c then spellProducts previous true cs
    else
      let goesOn := !gap && previous.goesOnWith c
      let product := !goesOn && startsOperand c && previous.endsOperand
      (if product then ['*'] else []) ++ (if c == '^' then ['*', '*'] else [c]) ++
        spellProducts (if goesOn then previous else .of c) false cs

/-- The canonical text. -/
def canonicalChars (fragment : List Char) : List Char :=
  spellProducts .other false (Text.replaceEach respellings fragment)

/-- The canonical text of a LaTeX fragment. -/
def canonical (fragment : String) : String := String.ofList (canonicalChars fragment.toList)

end SchoolMath.Latex
