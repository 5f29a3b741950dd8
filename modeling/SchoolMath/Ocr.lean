import SchoolMath.Text.Blank
import SchoolMath.Text.Replace
import SchoolMath.Text.Word

/-!
# `Ocr` — cleaning text recognised from handwriting

Recognised text writes signs in typographic variants and mistakes letters for digits. Cleaning replaces
the variants, reads a lone `l` as `1` and every `O` as `0`, and writes the differential `\mathrm{dx}` as
`dx`.
-/

namespace SchoolMath.Ocr

/-- Typographic dashes and operators, angle and degree signs. -/
def signs : List (String × String) := [
  ("−", "-"), ("–", "-"), ("—", "-"), ("÷", "/"), ("×", "x"), ("∠", "\\angle "), ("°", "^\\circ")]

/-- Removes the blanks behind `\angle`. -/
def angleRule (text : List Char) : Option (List Char × Nat) :=
  let word := "\\angle".toList
  if word.isPrefixOf text then
    some (word, word.length + ((text.drop word.length).takeWhile Text.isBlank).length)
  else none

/-- Whether a word goes on with this text. -/
def startsWithWord : List Char → Bool
  | c :: _ => Text.isWord c
  | [] => false

/-- Reads an `l` or `L` with no word character beside it as `1`; `inWord` says whether one stands
before the text. -/
def loneLetters (inWord : Bool) : List Char → List Char
  | [] => []
  | c :: cs =>
    let lone := (c == 'l' || c == 'L') && !inWord && !startsWithWord cs
    (if lone then '1' else c) :: loneLetters (Text.isWord c) cs

/-- Writes the upright differential as a plain one. -/
def differentialRule (text : List Char) : Option (List Char × Nat) :=
  match Text.wordRule "\\mathrm\x7bdx\x7d" " dx" text with
  | some found => some found
  | none => Text.wordRule "mathrm\x7bdx\x7d" " dx" text

/-- The text with signs, letters and differentials as they were meant, and single spaces. -/
def clean (text : String) : String :=
  let text := Text.replaceEach signs text.toList
  let text := Text.substitute angleRule text
  let text := loneLetters false text
  let text := text.map fun c => if c == 'O' then '0' else c
  let text := Text.substitute differentialRule text
  String.ofList (Text.collapseBlanks text)

end SchoolMath.Ocr
