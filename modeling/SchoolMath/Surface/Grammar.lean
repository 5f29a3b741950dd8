import SchoolMath.Surface.Attempt
import SchoolMath.Surface.Lexeme
import SchoolMath.Surface.Phrase

/-!
# `Surface.Grammar` — reading phrases and statements

```text
statement  →  name `=` phrase  |  phrase
phrase     →  operand (infix operand)*
operand    →  sign* primary suffix*
primary    →  number | name | `(` phrase `)` | quoted | `[` (phrase (`,` phrase)*)? `]`
suffix     →  `(` (phrase (`,` phrase)* `,`?)? `)` | `[` phrase `]` | `.` name
```

Alternatives are tried in order and the first that succeeds is kept; a repetition takes as many items
as it can. Blanks may stand between any two items. Each rule below is open in the reader for the
phrases inside it, and `phraseWithin` closes it: a phrase inside another starts behind a bracket, so
the length of the text bounds the depth.
-/

namespace SchoolMath.Surface

open Reader

/-! ## Operators -/

/-- An operator that one of the symbols spells. -/
def symbolToken {κ : Type} (kind : κ) (symbols : List String) : Reader (Token κ) :=
  named do return ⟨kind, ← firstOf (symbols.map (scan <| scanSymbol ·))⟩

/-- An operator that is a word. -/
def wordToken {κ : Type} (kind : κ) (word : String) : Reader (Token κ) :=
  named do return ⟨kind, ← scan (scanWord word)⟩

/-- An operator between two operands; a symbol comes before those it starts with. -/
def infixToken : Reader (Token Infix) := firstOf [
  symbolToken .power ["**", "^"],
  symbolToken .floorDivide ["//"],
  symbolToken .multiply ["*"],
  symbolToken .divide ["/"],
  symbolToken .modulo ["%"],
  symbolToken .matMul ["@"],
  symbolToken .add ["+"],
  symbolToken .subtract ["-"],
  symbolToken .shiftLeft ["<<"],
  symbolToken .shiftRight [">>"],
  symbolToken .lessEqual ["<="],
  symbolToken .greaterEqual [">="],
  symbolToken .equal ["=="],
  symbolToken .notEqual ["!="],
  symbolToken .less ["<"],
  symbolToken .greater [">"],
  symbolToken .bitAnd ["&"],
  symbolToken .bitOr ["|"],
  wordToken .and "and",
  wordToken .or "or"]

/-- An operator before an operand. -/
def signToken : Reader (Token Sign) := firstOf [
  symbolToken .negate ["-"],
  symbolToken .positive ["+"],
  symbolToken .invert ["~"],
  wordToken .not "not"]

/-! ## Parts of a phrase, open in the phrases inside -/

/-- A punctuation mark, which is no rule of its own. -/
def mark (symbol : String) : Reader Unit := do
  let _ ← scan (scanSymbol symbol)

/-- A name. -/
def nameToken : Reader String := named (scan scanName)

section Open

variable (inner : Reader Phrase)

/-- A comma and the phrase behind it. -/
def nextItem : Reader Phrase := do mark ","; gap; inner

/-- One phrase or more, with commas between them. -/
def items : Reader (List Phrase) := do
  let first ← inner
  gap
  let others ← repeated (nextItem inner)
  return first :: others

/-- A phrase in parentheses. -/
def group : Reader Primary := do
  let (source, phrase) ← named <| captured do
    mark "("; gap
    let phrase ← inner
    gap; mark ")"
    return phrase
  return .group source phrase

/-- Phrases in brackets. -/
def bracketed : Reader Primary := do
  let (source, phrases) ← named <| captured do
    mark "["; gap
    let phrases ← optional (items inner)
    gap; mark "]"
    return phrases.getD []
  return .list source phrases

/-- What an operand is without its signs and suffixes. -/
def primary : Reader Primary := firstOf [
  Primary.number <$> named (scan scanNumber),
  Primary.name <$> nameToken,
  group inner,
  Primary.quoted <$> named (scan scanText),
  bracketed inner]

/-- The arguments of a call, in parentheses; a comma may follow the last. -/
def call : Reader Suffix := do
  let (source, arguments) ← named <| captured do
    mark "("; gap
    let arguments ← optional do
      let arguments ← items inner
      gap
      let _ ← optional (mark ",")
      return arguments
    gap; mark ")"
    return arguments.getD []
  return .call source arguments

/-- An index in brackets. -/
def subscript : Reader Suffix := do
  let (source, index) ← named <| captured do
    mark "["; gap
    let index ← inner
    gap; mark "]"
    return index
  return .subscript source index

/-- A point and a name. -/
def member : Reader Suffix := do
  let (source, name) ← named <| captured do
    mark "."; gap
    nameToken
  return .member source name

/-- What may follow a primary. -/
def suffix : Reader Suffix := firstOf [call inner, subscript inner, member]

/-- An operand. Blanks behind a primary belong to it when no suffix follows. -/
def operand : Reader Operand := do
  let signs ← repeated signToken
  gap
  let primary ← primary inner
  gap
  let suffixes ← repeated (suffix inner)
  return .mk signs primary suffixes

/-- An operator and the operand behind it. -/
def link : Reader Link := do
  let operator ← infixToken
  gap
  let operand ← operand inner
  return .mk operator operand

/-- Operands with operators between them. -/
def phrase : Reader Phrase := do
  let (source, first, links) ← named <| captured do
    let first ← operand inner
    gap
    let links ← repeated (link inner)
    return (first, links)
  return .mk source first links

end Open

/-! ## Phrases, statements and whole texts -/

/-- A phrase with fewer than `depth` phrases around the innermost one. -/
def phraseWithin : Nat → Reader Phrase
  | 0 => fail
  | depth + 1 => phrase (phraseWithin depth)

/-- A phrase. -/
def anyPhrase : Reader Phrase := fun text => phraseWithin (text.length + 1) text

/-- A name, the sign of assignment and a phrase. -/
def assignment : Reader Statement := do
  let (source, name, sign, phrase) ← named <| captured do
    let name ← nameToken
    gap
    let sign ← named (scan scanAssign)
    gap
    let phrase ← anyPhrase
    return (name, sign, phrase)
  return .assignment source name sign phrase

/-- The end of the text. -/
def endOfText : Reader Unit := named fun text => ⟨if text.isEmpty then some ((), []) else none, none⟩

/-- A whole text. -/
def wholeText : Reader Statement := do
  gap
  let statement ← assignment <|> Statement.phrase <$> anyPhrase
  gap
  endOfText
  return statement

/-- The statement that a text is, or the offset at which it stopped being one: the furthest place where
a named rule failed. -/
def parse (text : String) : Except Nat Statement :=
  match wholeText text.toList with
  | ⟨some (statement, _), _⟩ => .ok statement
  | ⟨none, mark⟩ => .error (text.length - mark.getD text.length)

end SchoolMath.Surface
