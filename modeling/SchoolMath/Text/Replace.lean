/-!
# `Text.Replace` — finding a word and replacing every occurrence

Occurrences are replaced from left to right and do not overlap. A rule looks at the text from one
place on, so that it can also ask what follows a word.
-/

namespace SchoolMath.Text

/-- Whether the word stands somewhere in the text. -/
def occursIn (word : List Char) : List Char → Bool
  | [] => word.isEmpty
  | c :: cs => word.isPrefixOf (c :: cs) || occursIn word cs

/-- Copies a text of which the next `skip` characters are already dealt with. Where `rule` gives a
replacement and the number of characters it replaces, at least one, these are written instead. -/
def substituteFrom (rule : List Char → Option (List Char × Nat)) : Nat → List Char → List Char
  | _, [] => []
  | skip + 1, _ :: cs => substituteFrom rule skip cs
  | 0, c :: cs =>
    match rule (c :: cs) with
    | some (replacement, count) => replacement ++ substituteFrom rule (count - 1) cs
    | none => c :: substituteFrom rule 0 cs

/-- The text with what `rule` replaces, from left to right. -/
def substitute (rule : List Char → Option (List Char × Nat)) (text : List Char) : List Char :=
  substituteFrom rule 0 text

/-- The rule that replaces the nonempty word `pattern`. -/
def wordRule (pattern replacement : String) (text : List Char) : Option (List Char × Nat) :=
  if pattern.toList.isPrefixOf text then some (replacement.toList, pattern.length) else none

/-- The text with `replacement` for every occurrence of the nonempty word `pattern`. -/
def replaceAll (pattern replacement : String) (text : List Char) : List Char :=
  substitute (wordRule pattern replacement) text

/-- The text with each pair's first word replaced by its second, one pair after the other. -/
def replaceEach (pairs : List (String × String)) (text : List Char) : List Char :=
  pairs.foldl (fun t (pattern, replacement) => replaceAll pattern replacement t) text

end SchoolMath.Text
