/-!
# `Text.CharSet` — sets of characters given by ranges of code points

The properties of characters that a standard tabulates are kept as closed ranges of code points.
-/

namespace SchoolMath.Text

/-- A set of characters, as closed ranges of code points. -/
structure CharSet where
  ranges : List (Nat × Nat)

/-- Whether one of the ranges holds the code point of `c`. -/
def CharSet.contains (set : CharSet) (c : Char) : Bool :=
  set.ranges.any fun (first, last) => first ≤ c.toNat && c.toNat ≤ last

end SchoolMath.Text
