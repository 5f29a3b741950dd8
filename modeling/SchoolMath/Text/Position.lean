/-!
# `Text.Position` — lines and columns

Lines end with a line feed, alone or after a carriage return. Columns count characters, and a carriage
return that ends no line is one of them. Both start at 1.
-/

namespace SchoolMath.Text

/-- A place in a text. -/
structure Position where
  line : Nat
  column : Nat
deriving DecidableEq, Repr

/-- The place reached by reading `text` from a place. -/
def Position.after (start : Position) : List Char → Position
  | [] => start
  | '\r' :: '\n' :: cs => Position.after ⟨start.line + 1, 1⟩ cs
  | '\n' :: cs => Position.after ⟨start.line + 1, 1⟩ cs
  | _ :: cs => Position.after ⟨start.line, start.column + 1⟩ cs

/-- The place of the character with `offset` characters before it. -/
def Position.ofOffset (text : String) (offset : Nat) : Position :=
  Position.after ⟨1, 1⟩ (text.toList.take offset)

/-- The line and the column with a colon between them. -/
def Position.text (p : Position) : String := s!"{p.line}:{p.column}"

end SchoolMath.Text
