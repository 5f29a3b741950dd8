import SchoolMath.Text.Printable

/-!
# `Text.Quoted` — text between quotation marks, for messages

A quoted text shows every character that has a glyph of its own; the rest is escaped, so that the
reader of a message sees exactly which characters the text holds.
-/

namespace SchoolMath.Text

/-- How `c` is written between quotation marks. -/
def escape (c : Char) : List Char :=
  match c with
  | '\x00' => ['\\', '0']
  | '\t' => ['\\', 't']
  | '\r' => ['\\', 'r']
  | '\n' => ['\\', 'n']
  | '"' => ['\\', '"']
  | '\\' => ['\\', '\\']
  | c =>
    if isPrintable c then [c]
    else ['\\', 'u', '\x7b'] ++ Nat.toDigits 16 c.toNat ++ ['\x7d']

/-- The text between quotation marks. -/
def quoted (text : String) : String :=
  String.ofList ('"' :: text.toList.flatMap escape ++ ['"'])

end SchoolMath.Text
