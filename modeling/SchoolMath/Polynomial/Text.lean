import SchoolMath.Polynomial.Basic

/-!
# `Polynomial.Text` — the texts of a polynomial

Both texts show the highest power first, leave out the terms with coefficient zero, and put each
sign in front of a coefficient without sign; a coefficient 1 is written at the constant term only.
`render` writes products and powers with operators, `latex` in mathematical notation.
-/

namespace SchoolMath.Polynomial

variable {K : Type} [Zero K] [One K] [Neg K] [BEq K] [LT K] [DecidableLT K] [Numeral K]

/-- What stands before a term: its sign, and spaces around it behind another term. -/
def separator (first negative : Bool) : String :=
  match first, negative with
  | true, false => ""
  | true, true => "-"
  | false, false => " + "
  | false, true => " - "

/-- The terms one after another, the highest power first; `text` writes a power with a coefficient that
is not negative. -/
def joinTerms (text : Nat → K → String) (p : Polynomial K) : String :=
  let joined := p.terms.reverse.foldl (fun out (n, c) =>
    if c == 0 then out
    else out ++ separator out.isEmpty (c < 0) ++ text n (if c < 0 then -c else c)) ""
  if joined.isEmpty then "0" else joined

/-- A term: the coefficient unless it is 1, the sign of the product, and the power. -/
def termText (product : String) (power : Nat → String) (n : Nat) (c : K) : String :=
  if n = 0 then Numeral.display c
  else if c == 1 then power n
  else Numeral.display c ++ product ++ power n

/-- The text with `*` and `**`. -/
def render (p : Polynomial K) (unknown : String) : String :=
  p.joinTerms (termText "*" fun n => if n = 1 then unknown else s!"{unknown}**{n}")

/-- The text in mathematical notation. -/
def latex (p : Polynomial K) (unknown : String) : String :=
  p.joinTerms (termText "" fun n => if n = 1 then unknown else s!"{unknown}^\x7b{n}\x7d")

end SchoolMath.Polynomial
