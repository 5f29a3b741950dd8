import Mathlib
import SchoolMath.Decimal.Rounded

/-!
# `Decimal.Rounded` — the nearest whole number

Rounding is specified by what it finds: a whole number that no other one is closer than, and an even
one where another is as close (`IsNearest`). There is one such number for each value, and it grows with
the value (`IsNearest.le`). The quotients of the program are rounded to it (`isNearest_roundDiv`).
-/

namespace SchoolMath.Decimal

/-- The whole number `n` is nearest to `q`, and even if another is as near. -/
structure IsNearest (q : ℚ) (n : ℤ) : Prop where
  nearest : ∀ k : ℤ, |q - n| ≤ |q - k|
  even : ∀ k : ℤ, k ≠ n → |q - k| = |q - n| → Even n

namespace IsNearest

variable {q r : ℚ} {m n : ℤ}

/-- A whole number less than a half away is nearest; one that is a half away is so if it is even. -/
theorem of_half (hclose : |q - n| ≤ 1 / 2) (htie : |q - n| = 1 / 2 → Even n) : IsNearest q n := by
  have hfar : ∀ k : ℤ, k ≠ n → 1 / 2 ≤ |q - k| := by
    intro k hk
    have hone : (1 : ℚ) ≤ |(k : ℚ) - n| := by
      have hint : 1 ≤ |k - n| := Int.one_le_abs (sub_ne_zero.2 hk)
      exact_mod_cast hint
    have htriangle : |(k : ℚ) - n| ≤ |q - k| + |q - n| := by
      rw [abs_sub_comm q k]
      exact abs_sub_le (k : ℚ) q n
    linarith
  refine ⟨fun k => ?_, fun k hk heq => ?_⟩
  · by_cases hk : k = n
    · rw [hk]
    · exact hclose.trans (hfar k hk)
  · apply htie
    exact le_antisymm hclose (heq ▸ hfar k hk)

theorem neg (h : IsNearest q n) : IsNearest (-q) (-n) := by
  have habs : ∀ k : ℤ, |-q - k| = |q - (-k : ℤ)| := by
    intro k
    rw [← abs_neg]
    congr 1
    push_cast
    ring
  refine ⟨fun k => ?_, fun k hk heq => ?_⟩
  · rw [habs, habs, neg_neg]
    exact h.nearest (-k)
  · rw [habs, habs, neg_neg] at heq
    exact (h.even (-k) (fun hneg => hk (by omega)) heq).neg

/-- A larger value is not rounded to a smaller number. -/
theorem le (hm : IsNearest q m) (hn : IsNearest r n) (hle : q ≤ r) : m ≤ n := by
  by_contra hlt
  rw [not_le] at hlt
  have hcast : (n : ℚ) < m := by exact_mod_cast hlt
  -- the values lie on the two sides of the middle, so both are the middle
  have hq : (m + n : ℚ) / 2 ≤ q := by
    have h := sq_le_sq.2 (hm.nearest n)
    nlinarith
  have hr : r ≤ (m + n : ℚ) / 2 := by
    have h := sq_le_sq.2 (hn.nearest m)
    nlinarith
  have hmiddle : q = (m + n : ℚ) / 2 := le_antisymm (hle.trans hr) hq
  obtain rfl : r = q := le_antisymm (hr.trans hq) hle
  have htie : |r - m| = |r - n| := by
    rw [hmiddle, abs_sub_comm]
    congr 1
    ring
  obtain ⟨i, hi⟩ := hm.even n hlt.ne htie.symm
  obtain ⟨j, hj⟩ := hn.even m hlt.ne' htie
  -- even numbers have an odd one between them, which is nearer
  have hgap : (n : ℚ) + 2 ≤ m := by
    have hint : n + 2 ≤ m := by omega
    exact_mod_cast hint
  have h := sq_le_sq.2 (hn.nearest (n + 1))
  push_cast at h
  nlinarith

theorem unique (hm : IsNearest q m) (hn : IsNearest q n) : m = n :=
  le_antisymm (hm.le hn le_rfl) (hn.le hm le_rfl)

end IsNearest

/-- Quotients are rounded to the nearest whole number. -/
theorem isNearest_roundDiv (num : Nat) {den : Nat} (h : 0 < den) :
    IsNearest ((num : ℚ) / den) (roundDiv num den) := by
  set below := num / den with hbelow
  set rest := num % den with hrest
  have hden : (0 : ℚ) < den := by exact_mod_cast h
  have hquotient : (num : ℚ) / den = below + (rest : ℚ) / den := by
    rw [div_eq_iff hden.ne', add_mul, div_mul_cancel₀ _ hden.ne']
    exact_mod_cast (Nat.div_add_mod' num den).symm
  have hpos : 0 ≤ (rest : ℚ) / den := by positivity
  have hone : (rest : ℚ) / den < 1 := by
    rw [div_lt_one hden]
    exact_mod_cast Nat.mod_lt num h
  unfold roundDiv
  rw [← hbelow, ← hrest]
  split
  case h_1 hlt =>
    have hhalf : (rest : ℚ) / den < 1 / 2 := by
      have hnat : 2 * rest < den := Nat.compare_eq_lt.1 hlt
      rw [div_lt_iff₀ hden]
      have hcast : (2 * rest : ℚ) < den := by exact_mod_cast hnat
      linarith
    have hdistance : |(num : ℚ) / den - (below : ℤ)| = (rest : ℚ) / den := by
      rw [hquotient, Int.cast_natCast, add_sub_cancel_left, abs_of_nonneg hpos]
    exact .of_half (hdistance ▸ hhalf.le) fun heq => absurd (hdistance ▸ heq) hhalf.ne
  case h_2 heq =>
    have hhalf : (rest : ℚ) / den = 1 / 2 := by
      have hnat : 2 * rest = den := Nat.compare_eq_eq.1 heq
      rw [div_eq_iff hden.ne']
      have hcast : (2 * rest : ℚ) = den := by exact_mod_cast hnat
      linarith
    have heven : Even ((below + below % 2 : ℕ) : ℤ) := by
      rw [Int.even_coe_nat, Nat.even_iff]
      omega
    have hdistance : |(num : ℚ) / den - ((below + below % 2 : ℕ) : ℤ)| = 1 / 2 := by
      rw [hquotient, hhalf]
      rcases Nat.mod_two_eq_zero_or_one below with hmod | hmod
      · rw [hmod, abs_of_nonneg] <;> push_cast <;> linarith
      · rw [hmod, abs_of_nonpos] <;> push_cast <;> linarith
    exact .of_half hdistance.le fun _ => heven
  case h_3 hgt =>
    have hhalf : 1 / 2 < (rest : ℚ) / den := by
      have hnat : den < 2 * rest := Nat.compare_eq_gt.1 hgt
      rw [lt_div_iff₀ hden]
      have hcast : (den : ℚ) < 2 * rest := by exact_mod_cast hnat
      linarith
    have hdistance : |(num : ℚ) / den - ((below + 1 : ℕ) : ℤ)| = 1 - (rest : ℚ) / den := by
      rw [hquotient, abs_of_nonpos] <;> push_cast <;> linarith
    refine .of_half ?_ fun heq => ?_
    · rw [hdistance]
      linarith
    · rw [hdistance] at heq
      linarith

end SchoolMath.Decimal
