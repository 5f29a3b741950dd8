/-!
# `Surface.Lexeme` — numbers, names, words and quoted texts

A scanner splits a text into the lexeme at its front and the rest. Lexemes are as long as possible:
a number takes all its digits, and a name or a word ends only where no letter, digit or underscore
follows.
-/

namespace SchoolMath.Surface

/-- Characters that a name may start with. -/
def isNameStart (c : Char) : Bool := c.isAlpha || c == '_'

/-- Characters that a name may go on with. -/
def isNameChar (c : Char) : Bool := c.isAlphanum || c == '_'

/-- The words that are operators and therefore no names. -/
def keywords : List (List Char) := [['a', 'n', 'd'], ['o', 'r'], ['n', 'o', 't']]

/-- Digits with at most one point; a point needs a digit on one side. -/
def scanNumber (text : List Char) : Option (List Char × List Char) :=
  match text.takeWhile Char.isDigit, text.dropWhile Char.isDigit with
  | [], '.' :: rest =>
    match rest.takeWhile Char.isDigit with
    | [] => none
    | fraction => some ('.' :: fraction, rest.dropWhile Char.isDigit)
  | [], _ => none
  | whole, '.' :: rest =>
    some (whole ++ '.' :: rest.takeWhile Char.isDigit, rest.dropWhile Char.isDigit)
  | whole, rest => some (whole, rest)

/-- A name: letters, digits and underscores, no digit first, and no keyword. -/
def scanName (text : List Char) : Option (List Char × List Char) :=
  match text with
  | [] => none
  | c :: _ =>
    let word := text.takeWhile isNameChar
    if isNameStart c && !keywords.contains word then some (word, text.dropWhile isNameChar) else none

/-- The operator `word`, when no longer name stands there. -/
def scanWord (word : String) (text : List Char) : Option (List Char × List Char) :=
  if text.takeWhile isNameChar = word.toList then some (word.toList, text.dropWhile isNameChar)
  else none

/-- The characters of `symbol`. -/
def scanSymbol (symbol : String) (text : List Char) : Option (List Char × List Char) :=
  if symbol.toList.isPrefixOf text then some (symbol.toList, text.drop symbol.length) else none

/-- The sign of an assignment, which is no comparison. -/
def scanAssign : List Char → Option (List Char × List Char)
  | '=' :: '=' :: _ => none
  | '=' :: rest => some (['='], rest)
  | _ => none

/-- A text between two quotation marks `mark`. -/
def scanBetween (mark : Char) (text : List Char) : Option (List Char × List Char) :=
  match text with
  | [] => none
  | c :: cs =>
    if c = mark then
      match cs.dropWhile (· != mark) with
      | [] => none
      | _ :: rest => some (mark :: cs.takeWhile (· != mark) ++ [mark], rest)
    else none

/-- A text between double or between single quotation marks. -/
def scanText (text : List Char) : Option (List Char × List Char) :=
  scanBetween '"' text <|> scanBetween '\'' text

end SchoolMath.Surface
