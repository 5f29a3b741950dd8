/-!
# `Latex.Bound` — the bounds of an integral

A bound behind `_` or `^` is a bracketed text, which ends at the matching bracket, or one character.
Only brackets of the opening kind are counted.
-/

namespace SchoolMath.Latex

/-- The bracket that closes an opening one. -/
def closingBracket? : Char → Option Char
  | '(' => some ')'
  | '\x7b' => some '\x7d'
  | '[' => some ']'
  | _ => none

/-- The text up to the closing bracket that matches one already open, and the text behind it; `depth`
counts the brackets opened since. -/
def splitAtClosing (opening closing : Char) : Nat → List Char → Option (List Char × List Char)
  | _, [] => none
  | depth, c :: cs =>
    if c = opening then
      (splitAtClosing opening closing (depth + 1) cs).map fun (inner, rest) => (c :: inner, rest)
    else if c = closing then
      match depth with
      | 0 => some ([], cs)
      | depth + 1 =>
        (splitAtClosing opening closing depth cs).map fun (inner, rest) => (c :: inner, rest)
    else (splitAtClosing opening closing depth cs).map fun (inner, rest) => (c :: inner, rest)

/-- The bound at the front of a text and the text behind it; none if its bracket is not closed. -/
def splitBound? : List Char → Option (List Char × List Char)
  | [] => some ([], [])
  | c :: cs =>
    match closingBracket? c with
    | some closing => splitAtClosing c closing 0 cs
    | none => some ([c], cs)

end SchoolMath.Latex
