import SchoolMath.Surface.Phrase

/-!
# `Surface.Listing` — the parts of a statement in reading order

Every part that a rule of the grammar read, with the name of the rule, its depth and its text; a part
stands before the parts inside it.
-/

namespace SchoolMath.Surface

/-- A part of a text: how deep it lies, the rule that read it, and its characters. -/
structure Entry where
  depth : Nat
  rule : String
  text : String
deriving DecidableEq, Repr

mutual

/-- A phrase and its parts. -/
def Phrase.listing (depth : Nat) : Phrase → List Entry
  | .mk source first links =>
    ⟨depth, "Expr", source⟩ :: first.listing (depth + 1) ++ listingOfLinks (depth + 1) links

/-- The operators and operands of a phrase after the first. -/
def listingOfLinks (depth : Nat) : List Link → List Entry
  | [] => []
  | .mk operator operand :: links =>
    ⟨depth, operator.kind.rule, operator.text⟩ ::
      operand.listing depth ++ listingOfLinks depth links

/-- The parts of an operand. -/
def Operand.listing (depth : Nat) : Operand → List Entry
  | .mk signs primary suffixes =>
    signs.map (fun sign => ⟨depth, sign.kind.rule, sign.text⟩) ++ primary.listing depth ++
      listingOfSuffixes depth suffixes

/-- A primary and its parts. -/
def Primary.listing (depth : Nat) : Primary → List Entry
  | .number text => [⟨depth, "Number", text⟩]
  | .name text => [⟨depth, "Identifier", text⟩]
  | .group source inner => ⟨depth, "Group", source⟩ :: inner.listing (depth + 1)
  | .quoted text => [⟨depth, "Text", text⟩]
  | .list source items => ⟨depth, "List", source⟩ :: listingOfPhrases (depth + 1) items

/-- The parts of phrases in a row. -/
def listingOfPhrases (depth : Nat) : List Phrase → List Entry
  | [] => []
  | phrase :: phrases => phrase.listing depth ++ listingOfPhrases depth phrases

/-- The suffixes of an operand and their parts. -/
def listingOfSuffixes (depth : Nat) : List Suffix → List Entry
  | [] => []
  | suffix :: suffixes => suffix.listing depth ++ listingOfSuffixes depth suffixes

/-- A suffix and its parts. -/
def Suffix.listing (depth : Nat) : Suffix → List Entry
  | .call source arguments => ⟨depth, "Call", source⟩ :: listingOfPhrases (depth + 1) arguments
  | .subscript source index => ⟨depth, "Subscript", source⟩ :: index.listing (depth + 1)
  | .member source name => [⟨depth, "Attribute", source⟩, ⟨depth + 1, "Identifier", name⟩]

end

/-- A statement and its parts. -/
def Statement.listing (depth : Nat) : Statement → List Entry
  | .assignment source name sign value =>
    [⟨depth, "Assignment", source⟩, ⟨depth + 1, "Identifier", name⟩, ⟨depth + 1, "Assign", sign⟩] ++
      value.listing (depth + 1)
  | .phrase value => value.listing depth

/-- The listing of a whole text, between the text itself and its end. -/
def Statement.program (text : String) (statement : Statement) : List Entry :=
  ⟨0, "Program", text⟩ :: statement.listing 1 ++ [⟨1, "EOI", ""⟩]

end SchoolMath.Surface
