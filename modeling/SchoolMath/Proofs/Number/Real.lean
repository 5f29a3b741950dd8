import Mathlib
import SchoolMath.Number.Basic

/-!
# `Number.Real` — exact numbers

The solvers work over any numbers with the operations they use. Of exact numbers it is asked that
powers are repeated products where the exponent is a natural number; the reals, with their own
square root and their own trigonometric functions, are such numbers.
-/

namespace SchoolMath

/-- Powers of numbers are exact: one with a natural number as exponent is the repeated product. -/
def ExactPowers (K : Type) [Monoid K] [Pow K K] [Whole K] : Prop :=
  ∀ (x c : K) (n : Nat), Whole.toNat? c = some n → x ^ c = x ^ n

noncomputable instance wholeReal : Whole ℝ where
  toNat? x := if x = (⌊x⌋₊ : ℝ) then some ⌊x⌋₊ else none

noncomputable instance squareRootReal : SquareRoot ℝ := ⟨Real.sqrt⟩

instance finitenessReal : Finiteness ℝ := ⟨fun _ => true⟩

/-- Angles of reals are in degrees. -/
noncomputable instance trigonometryReal : Trigonometry ℝ where
  sine angle := Real.sin (angle * (Real.pi / 180))
  cosine angle := Real.cos (angle * (Real.pi / 180))
  arcsine ratio := Real.arcsin ratio * (180 / Real.pi)
  arccosine ratio := Real.arccos ratio * (180 / Real.pi)
  hypotenuse x y := Real.sqrt (x * x + y * y)

/-- The reals that are natural numbers are known as such. -/
theorem toNat?_real_eq_some {x : ℝ} {n : Nat} : Whole.toNat? x = some n ↔ x = n := by
  show (if x = (⌊x⌋₊ : ℝ) then some ⌊x⌋₊ else none) = some n ↔ x = n
  constructor
  · intro h
    split at h
    · next hx => rw [hx, Option.some.inj h]
    · cases h
  · rintro rfl
    rw [Nat.floor_natCast, if_pos rfl]

/-- Powers of reals are exact. -/
theorem exactPowers_real : ExactPowers ℝ := by
  intro x c n h
  rw [toNat?_real_eq_some.1 h]
  exact Real.rpow_natCast x n

end SchoolMath
