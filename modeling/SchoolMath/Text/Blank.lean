import SchoolMath.Text.CharSet

/-!
# `Text.Blank` — blank characters, trimming and words

A blank is a character with the Unicode property `White_Space`.
-/

namespace SchoolMath.Text

/-- The characters that only separate. -/
def blankCharacters : CharSet where
  ranges := [
    (0x9, 0xd), (0x20, 0x20), (0x85, 0x85), (0xa0, 0xa0), (0x1680, 0x1680), (0x2000, 0x200a),
    (0x2028, 0x2029), (0x202f, 0x202f), (0x205f, 0x205f), (0x3000, 0x3000)]

/-- Whether `c` only separates. -/
def isBlank (c : Char) : Bool := blankCharacters.contains c

/-- The text without its leading blanks. -/
def trimStart (text : List Char) : List Char := text.dropWhile isBlank

/-- The text without its trailing blanks. -/
def trimEnd : List Char → List Char
  | [] => []
  | c :: cs =>
    match trimEnd cs with
    | [] => if isBlank c then [] else [c]
    | d :: ds => c :: d :: ds

/-- The text without the blanks around it. -/
def trim (text : List Char) : List Char := trimEnd (trimStart text)

/-- The text without the blanks around it, as a string. -/
def trimmed (text : String) : String := String.ofList (trim text.toList)

/-- The maximal runs of characters that are not blank. -/
def words : List Char → List (List Char)
  | [] => []
  | c :: cs =>
    if isBlank c then words cs
    else match cs, words cs with
      | d :: _, w :: ws => if isBlank d then [c] :: w :: ws else (c :: w) :: ws
      | _, ws => [c] :: ws

/-- The words of the text with one space between any two. -/
def collapseBlanks (text : List Char) : List Char := List.intercalate [' '] (words text)

end SchoolMath.Text
