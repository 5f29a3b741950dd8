/-!
# `Surface.Attempt` — readers that remember how far they got

A reader takes a list of characters and either reads something off its front or reads nothing. On the
way it may try rules that carry a name; the earliest answer to "why was this text refused" is the
furthest place at which such a rule failed. Places are measured from the end of the text, by the
number of characters left, so that a reader needs to know nothing of what stands before it.

* `Reader` is a monad whose `<|>` tries the second reader at the same place, so that `optional p`
  reads what `p` reads, if it reads anything;
* `named` marks the place at which a reader failed;
* `repeated` reads as often as it can, with blanks between two items;
* `captured` returns the text that a reader consumed.
-/

namespace SchoolMath.Surface

/-- The further of two marks, each a number of characters left. -/
def furthest : Option Nat → Option Nat → Option Nat
  | none, mark => mark
  | mark, none => mark
  | some m, some n => some (min m n)

/-- What comes of trying to read. -/
structure Attempt (α : Type) where
  /-- What was read, and the text after it. -/
  result : Option (α × List Char)
  /-- The fewest characters left where a named rule failed. -/
  mark : Option Nat

/-- A way to read something off the front of a text. -/
def Reader (α : Type) := List Char → Attempt α

namespace Reader

variable {α β : Type}

/-- Reads nothing and succeeds. -/
def succeed (a : α) : Reader α := fun text => ⟨some (a, text), none⟩

/-- Reads nothing and fails. -/
def fail : Reader α := fun _ => ⟨none, none⟩

/-- Reads with `p`, then with the reader that `f` gives for what was read. -/
def andThen (p : Reader α) (f : α → Reader β) : Reader β := fun text =>
  match p text with
  | ⟨none, mark⟩ => ⟨none, mark⟩
  | ⟨some (a, rest), mark⟩ =>
    let next := f a rest
    ⟨next.result, furthest mark next.mark⟩

/-- Reads with `p` or, if that fails, with `q` at the same place. -/
def orElse (p : Reader α) (q : Unit → Reader α) : Reader α := fun text =>
  match p text with
  | ⟨some read, mark⟩ => ⟨some read, mark⟩
  | ⟨none, mark⟩ =>
    let other := q () text
    ⟨other.result, furthest mark other.mark⟩

instance : Monad Reader where
  pure := succeed
  bind := andThen

instance : Alternative Reader where
  failure := fail
  orElse := orElse

/-- Reads what a scanner accepts; inside, no place is marked. -/
def scan (scanner : List Char → Option (List Char × List Char)) : Reader String := fun text =>
  ⟨(scanner text).map fun (word, rest) => (String.ofList word, rest), none⟩

/-- Marks the place if `p` fails there. -/
def named (p : Reader α) : Reader α := fun text =>
  match p text with
  | ⟨some read, mark⟩ => ⟨some read, mark⟩
  | ⟨none, mark⟩ => ⟨none, furthest mark (some text.length)⟩

/-- What `p` reads, with the text that it consumed. -/
def captured (p : Reader α) : Reader (String × α) := fun text =>
  match p text with
  | ⟨none, mark⟩ => ⟨none, mark⟩
  | ⟨some (a, rest), mark⟩ =>
    ⟨some ((String.ofList (text.take (text.length - rest.length)), a), rest), mark⟩

/-- The blanks that may stand between two items: space, tab, carriage return, line feed. -/
def isGap (c : Char) : Bool := c == ' ' || c == '\t' || c == '\r' || c == '\n'

/-- Passes over blanks, if there are any. -/
def gap : Reader Unit := fun text => ⟨some ((), text.dropWhile isGap), none⟩

/-- Items read with `p`, each with blanks before it, `limit` at most. Blanks that no item follows are
left unread. -/
def repeatedAfterGap (p : Reader α) : Nat → Reader (List α)
  | 0 => pure []
  | limit + 1 => (do
      gap
      let item ← p
      let items ← repeatedAfterGap p limit
      pure (item :: items)) <|> pure []

/-- As many items as `p` reads, with blanks between them. An item that consumes something makes the
length of the text a bound on their number. -/
def repeated (p : Reader α) : Reader (List α) := fun text =>
  ((do
      let item ← p
      let items ← repeatedAfterGap p text.length
      pure (item :: items)) <|> pure []) text

/-- The first of the readers that succeeds. -/
def firstOf : List (Reader α) → Reader α
  | [] => fail
  | p :: ps => p <|> firstOf ps

end Reader

end SchoolMath.Surface
