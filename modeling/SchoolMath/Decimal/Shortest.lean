import SchoolMath.Decimal.Rounded

/-!
# `Decimal.Shortest` — the fewest digits that read back

A double stands for all reals that round to it. `shortest` finds the decimal with the fewest digits
in that interval; of two with that many digits the nearer one, and of two equally near the one a
`Tie` names.
-/

namespace SchoolMath.Decimal

/-- Which of two equally near decimals is taken. -/
inductive Tie where
  | upward
  | toEven
deriving DecidableEq, Repr

/-- The reals that round to a positive double, times four: from `low / den` to `high / den`, the ends
included when `closed`. -/
structure Interval where
  low : Nat
  high : Nat
  den : Nat
  closed : Bool
deriving Repr

/-- The interval of `significand · 2 ^ exponent`. The gap below a power of two is half the gap above it,
unless it is the least power with that exponent; the ends belong to an even significand. -/
def Interval.around (significand : Nat) (exponent : Int) : Interval :=
  let below := if significand = twoTo 52 ∧ -1074 < exponent then 1 else 2
  { low := numerator (4 * significand - below) exponent
    high := numerator (4 * significand + 2) exponent
    den := denominator exponent
    closed := significand % 2 == 0 }

/-- Whether `coefficient · 10 ^ power` lies in the interval. -/
def Interval.holds (i : Interval) (coefficient : Nat) (power : Int) : Bool :=
  let value := 4 * coefficient * tenTo power.toNat * i.den
  let scale := tenTo (-power).toNat
  if i.closed then i.low * scale ≤ value && value ≤ i.high * scale
  else i.low * scale < value && value < i.high * scale

/-- The nearer of `below` and `below + 1` to `below + rest / den`. -/
def nearer (tie : Tie) (below rest den : Nat) : Nat :=
  match compare (2 * rest) den, tie with
  | .lt, _ => below
  | .gt, _ => below + 1
  | .eq, .upward => below + 1
  | .eq, .toEven => below + below % 2

/-- A decimal of `count` digits in the interval of `significand · 2 ^ exponent`: one of the two
neighbours of the exact value on that grid. -/
def ofCount? (tie : Tie) (significand : Nat) (exponent : Int) (count : Nat) : Option Scientific :=
  let num := numerator significand exponent
  let den := denominator exponent
  let power := leadingPower num den - ((count : Int) - 1)
  let (n, d) := inUnits num den power
  let below := n / d
  let interval := Interval.around significand exponent
  match interval.holds below power, interval.holds (below + 1) power with
  | true, true => some ⟨nearer tie below (n % d) d, power⟩
  | true, false => some ⟨below, power⟩
  | false, true => some ⟨below + 1, power⟩
  | false, false => none

/-- The decimal with the fewest digits that reads back as `significand · 2 ^ exponent`. Seventeen digits
always do. -/
def shortest (tie : Tie) (significand : Nat) (exponent : Int) : Scientific :=
  if significand = 0 then ⟨0, 0⟩
  else
    match (List.range 17).findSome? fun k => ofCount? tie significand exponent (k + 1) with
    | some d => d.trimmed
    | none => atDigits 17 significand exponent

end SchoolMath.Decimal
