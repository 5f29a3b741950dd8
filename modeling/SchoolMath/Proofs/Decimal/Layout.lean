import Mathlib
import SchoolMath.Decimal.Read
import SchoolMath.Proofs.Arithmetic.Reading
import SchoolMath.Proofs.Decimal.Digits

/-!
# `Decimal.Layout` — decimals as they are written

A decimal is written with a sign, digits before the point and digits behind it. `Layout.IsCanonical`
says that nothing is superfluous: no zero in front, none at the end, no point without digits behind it
and no sign on zero. Read as an exact number (`readExact?`), every layout has the value of its digits.

A number of units of the last place has one canonical layout (`Layout.ofUnits`), so canonical layouts
are told apart by their values (`Layout.IsCanonical.eq_of_value_eq`).
-/

namespace SchoolMath.Decimal

/-- The factor of a sign. -/
def signFactor (negative : Bool) : ℚ := if negative then -1 else 1

/-- The exact number that a text writes. -/
def readExact? (text : List Char) : Option ℚ :=
  let (negative, cs) := splitSign text
  (readScientific? cs).map fun d => signFactor negative * (d.coefficient * 10 ^ d.exponent)

/-- A decimal by its parts. -/
structure Layout where
  negative : Bool
  whole : List Char
  fraction : List Char

namespace Layout

/-- The characters. The point is written if there are digits behind it. -/
def text (l : Layout) : List Char := signText l.negative ++ l.whole ++ fractionText l.fraction

/-- The exact number. -/
def value (l : Layout) : ℚ :=
  signFactor l.negative * (ofDigits (l.whole ++ l.fraction) * 10 ^ (-(l.fraction.length : ℤ)))

/-- Nothing is superfluous, and there are no more decimals than `places`. -/
structure IsCanonical (places : Nat) (l : Layout) : Prop where
  whole : HasLead l.whole
  areDigits : AreDigits l.fraction
  length_le : l.fraction.length ≤ places
  last : l.fraction.getLast? ≠ some '0'
  not_negativeZero : l.negative = true → ¬ (l.whole = ['0'] ∧ l.fraction = [])

/-! ## Reading -/

/-- The sign is read, since a digit is none. -/
theorem splitSign_text (negative : Bool) {ds : List Char} (rest : List Char) (h : AreDigits ds)
    (hne : ds ≠ []) : splitSign (signText negative ++ ds ++ rest) = (negative, ds ++ rest) := by
  obtain ⟨c, cs, rfl⟩ := List.exists_cons_of_ne_nil hne
  cases negative with
  | true => rfl
  | false =>
    have hc : c.isDigit = true := h c List.mem_cons_self
    show splitSign (c :: (cs ++ rest)) = (false, c :: (cs ++ rest))
    unfold splitSign
    split
    · next heq => rw [(List.cons.inj heq).1] at hc; exact absurd hc (by decide)
    · next heq => rw [(List.cons.inj heq).1] at hc; exact absurd hc (by decide)
    · rfl

theorem readScientific?_parts {whole fraction : List Char} (hw : AreDigits whole)
    (hf : AreDigits fraction) (hne : whole ≠ []) :
    readScientific? (whole ++ fractionText fraction) =
      some ⟨ofDigits (whole ++ fraction), -(fraction.length : ℤ)⟩ := by
  by_cases hempty : fraction = []
  · subst hempty
    rw [fractionText, List.isEmpty_nil, if_pos rfl, List.append_nil]
    exact Arithmetic.readScientific?_of_digits hw hne
  · have hpoint : fractionText fraction = '.' :: fraction := by simp [fractionText, hempty]
    obtain ⟨htake, hdrop⟩ := Arithmetic.takeWhile_append ('.' :: fraction) hw (by simp)
    obtain ⟨htake', hdrop'⟩ := Arithmetic.takeWhile_append [] hf (by simp)
    rw [List.append_nil] at htake' hdrop'
    simp [readScientific?, hpoint, htake, hdrop, htake', hdrop', hne, readExponent?]

/-- A layout is read as its value. -/
theorem readExact?_text {l : Layout} (hw : AreDigits l.whole) (hf : AreDigits l.fraction)
    (hne : l.whole ≠ []) : readExact? l.text = some l.value := by
  unfold readExact? text
  rw [splitSign_text l.negative _ hw hne]
  simp only [readScientific?_parts hw hf hne, Option.map_some]
  rfl

theorem IsCanonical.readExact?_text {places : Nat} {l : Layout} (h : l.IsCanonical places) :
    readExact? l.text = some l.value :=
  Layout.readExact?_text h.whole.areDigits h.areDigits h.whole.ne_nil

/-! ## Units of the last place -/

/-- The layout of `n` units of the last place. -/
def ofUnits (places : Nat) (negative : Bool) (n : Nat) : Layout where
  negative := negative && n != 0
  whole := digits (n / 10 ^ places)
  fraction := dropTrailingZeros (paddedDigits places (n % 10 ^ places))

/-- The digits behind the point with the zeros that are not written. -/
def filled (places : Nat) (l : Layout) : List Char :=
  l.fraction ++ List.replicate (places - l.fraction.length) '0'

/-- The number of units of the last place. -/
def units (places : Nat) (l : Layout) : Nat := ofDigits (l.whole ++ l.filled places)

section Units

variable {places : Nat} {l : Layout}

theorem length_filled (h : l.fraction.length ≤ places) : (l.filled places).length = places := by
  rw [filled, List.length_append, List.length_replicate, Nat.add_sub_cancel' h]

theorem areDigits_filled (h : AreDigits l.fraction) : AreDigits (l.filled places) :=
  h.append (AreDigits.zeros _)

/-- The zeros that are not written do not change the value. -/
theorem value_eq_units (h : l.fraction.length ≤ places) :
    l.value = signFactor l.negative * (l.units places / 10 ^ places) := by
  obtain ⟨k, rfl⟩ := Nat.exists_eq_add_of_le h
  have hunits : l.units (l.fraction.length + k) = 10 ^ k * ofDigits (l.whole ++ l.fraction) := by
    rw [units, filled, Nat.add_sub_cancel_left, ← List.append_assoc, ofDigits_append,
      List.length_replicate, ofDigits_zeros, Nat.add_zero]
  rw [value, hunits, pow_add, zpow_neg, zpow_natCast]
  push_cast
  field_simp

/-- The digits before the point and those behind it, from the units. -/
theorem units_div_mod (h : AreDigits l.fraction) (hlength : l.fraction.length ≤ places) :
    l.units places / 10 ^ places = ofDigits l.whole ∧
      l.units places % 10 ^ places = ofDigits (l.filled places) := by
  have hlt : ofDigits (l.filled places) < 10 ^ (l.filled places).length :=
    ofDigits_lt (areDigits_filled h)
  have hsplit : l.units places =
      10 ^ places * ofDigits l.whole + ofDigits (l.filled places) := by
    rw [units, ofDigits_append, length_filled hlength]
  rw [length_filled hlength] at hlt
  rw [hsplit]
  constructor
  · rw [Nat.mul_add_div (Nat.pow_pos (by decide)), Nat.div_eq_of_lt hlt, Nat.add_zero]
  · rw [Nat.mul_add_mod, Nat.mod_eq_of_lt hlt]

/-- A canonical layout is the one of its units. -/
theorem IsCanonical.eq_ofUnits (hplaces : 0 < places) (h : l.IsCanonical places) :
    l = ofUnits places l.negative (l.units places) := by
  obtain ⟨hdiv, hmod⟩ := units_div_mod h.areDigits h.length_le
  have hlt : l.units places % 10 ^ places < 10 ^ places := Nat.mod_lt _ (Nat.pow_pos (by decide))
  have hwhole : l.whole = digits (l.units places / 10 ^ places) :=
    eq_of_ofDigits_eq_of_lead h.whole (hasLead_digits _) (by rw [hdiv, ofDigits_digits])
  have hfilled : l.filled places = paddedDigits places (l.units places % 10 ^ places) := by
    apply eq_of_ofDigits_eq (areDigits_filled h.areDigits) (areDigits_paddedDigits _ _)
    · rw [length_filled h.length_le, length_paddedDigits hplaces hlt]
    · rw [ofDigits_paddedDigits, hmod]
  have hfraction : l.fraction =
      dropTrailingZeros (paddedDigits places (l.units places % 10 ^ places)) := by
    rw [← hfilled, filled, dropTrailingZeros_append_zeros h.last]
  have hnegative : l.negative = (l.negative && l.units places != 0) := by
    by_cases hzero : l.units places = 0
    · -- zero is written with the one digit, so it has no sign
      have hsign : l.negative ≠ true := by
        intro hsign
        apply h.not_negativeZero hsign
        have hnone : dropTrailingZeros ([] ++ List.replicate places '0') = [] :=
          dropTrailingZeros_append_zeros (by simp) places
        rw [hwhole, hfraction, hzero, Nat.zero_div, Nat.zero_mod, paddedDigits_zero hplaces]
        exact ⟨rfl, hnone⟩
      simp [hsign]
    · simp [hzero]
  obtain ⟨negative, whole, fraction⟩ := l
  exact Layout.mk.injEq .. ▸ ⟨hnegative, hwhole, hfraction⟩

/-- The units of the layout of a number of units. -/
theorem units_ofUnits (hplaces : 0 < places) (negative : Bool) (n : Nat) :
    (ofUnits places negative n).fraction.length ≤ places ∧
      (ofUnits places negative n).units places = n := by
  have hlt : n % 10 ^ places < 10 ^ places := Nat.mod_lt _ (Nat.pow_pos (by decide))
  have hlength := length_paddedDigits hplaces hlt
  obtain ⟨k, hk⟩ := exists_dropTrailingZeros (paddedDigits places (n % 10 ^ places))
  have hsum := congrArg List.length hk
  rw [hlength, List.length_append, List.length_replicate] at hsum
  have hfilled : (ofUnits places negative n).filled places =
      paddedDigits places (n % 10 ^ places) := by
    have hcount : places - (dropTrailingZeros (paddedDigits places (n % 10 ^ places))).length =
        k := by omega
    show dropTrailingZeros _ ++ List.replicate (places - _) '0' = _
    rw [ofUnits, hcount, ← hk]
  refine ⟨by show List.length (dropTrailingZeros _) ≤ _; omega, ?_⟩
  rw [units, hfilled, ofDigits_append, hlength, ofDigits_paddedDigits]
  show 10 ^ places * ofDigits (digits _) + _ = n
  rw [ofDigits_digits, Nat.div_add_mod]

theorem isCanonical_ofUnits (hplaces : 0 < places) (negative : Bool) (n : Nat) :
    (ofUnits places negative n).IsCanonical places where
  whole := hasLead_digits _
  areDigits := by
    obtain ⟨k, hk⟩ := exists_dropTrailingZeros (paddedDigits places (n % 10 ^ places))
    have hdigits := areDigits_paddedDigits places (n % 10 ^ places)
    rw [hk] at hdigits
    exact hdigits.left
  length_le := (units_ofUnits hplaces negative n).1
  last := getLast?_dropTrailingZeros _
  not_negativeZero := by
    rintro hnegative ⟨hwhole, hfraction⟩
    obtain ⟨-, hn⟩ : negative = true ∧ n ≠ 0 := by simpa [ofUnits] using hnegative
    apply hn
    have hzero : ofDigits ['0'] = 0 := by decide
    rw [← (units_ofUnits hplaces negative n).2, units, filled, hwhole, hfraction, ofDigits_append,
      hzero, List.nil_append, ofDigits_zeros]
    rfl

theorem value_ofUnits (hplaces : 0 < places) (negative : Bool) (n : Nat) :
    (ofUnits places negative n).value = signFactor negative * (n / 10 ^ places) := by
  obtain ⟨hlength, hunits⟩ := units_ofUnits hplaces negative n
  rw [value_eq_units hlength, hunits]
  by_cases hn : n = 0
  · simp [hn]
  · have hsign : (ofUnits places negative n).negative = negative := by simp [ofUnits, hn]
    rw [hsign]

/-- Signed units determine the layout. -/
theorem ofUnits_congr {b b' : Bool} {m n : Nat}
    (h : signFactor b * (m : ℚ) = signFactor b' * n) : ofUnits places b m = ofUnits places b' n := by
  have hm : (0 : ℚ) ≤ m := Nat.cast_nonneg m
  have hn : (0 : ℚ) ≤ n := Nat.cast_nonneg n
  have hcases : m = n ∧ (b = b' ∨ m = 0) := by
    cases b <;> cases b' <;> simp only [signFactor, if_true, Bool.false_eq_true, if_false] at h
    · exact ⟨by exact_mod_cast (by linarith : (m : ℚ) = n), .inl rfl⟩
    · have hzero : (m : ℚ) = 0 ∧ (n : ℚ) = 0 := ⟨by linarith, by linarith⟩
      exact ⟨by exact_mod_cast hzero.1.trans hzero.2.symm, .inr (by exact_mod_cast hzero.1)⟩
    · have hzero : (m : ℚ) = 0 ∧ (n : ℚ) = 0 := ⟨by linarith, by linarith⟩
      exact ⟨by exact_mod_cast hzero.1.trans hzero.2.symm, .inr (by exact_mod_cast hzero.1)⟩
    · exact ⟨by exact_mod_cast (by linarith : (m : ℚ) = n), .inl rfl⟩
  obtain ⟨rfl, rfl | rfl⟩ := hcases
  · rfl
  · simp [ofUnits]

/-- Canonical layouts with the same value are the same. -/
theorem IsCanonical.eq_of_value_eq {l' : Layout} (hplaces : 0 < places) (h : l.IsCanonical places)
    (h' : l'.IsCanonical places) (hvalue : l.value = l'.value) : l = l' := by
  rw [value_eq_units h.length_le, value_eq_units h'.length_le, ← mul_div_assoc, ← mul_div_assoc,
    div_left_inj' (by positivity)] at hvalue
  rw [h.eq_ofUnits hplaces, h'.eq_ofUnits hplaces]
  exact ofUnits_congr hvalue

end Units

/-- An integer is written without a point. -/
theorem isCanonical_integer (places : Nat) (n : ℤ) :
    (⟨n < 0, digits n.natAbs, []⟩ : Layout).IsCanonical places where
  whole := hasLead_digits _
  areDigits := by simp [AreDigits]
  length_le := Nat.zero_le _
  last := by simp
  not_negativeZero := by
    rintro hnegative ⟨hzero, -⟩
    have hvalue := congrArg ofDigits hzero
    rw [ofDigits_digits] at hvalue
    have hn : n.natAbs = 0 := hvalue
    have hlt : n < 0 := of_decide_eq_true hnegative
    omega

theorem value_integer (n : ℤ) : (⟨n < 0, digits n.natAbs, []⟩ : Layout).value = n := by
  have hmagnitude : ((n.natAbs : ℕ) : ℚ) = |(n : ℚ)| := by
    rw [Nat.cast_natAbs, Int.cast_abs]
  show signFactor (decide (n < 0)) * ((ofDigits (digits n.natAbs ++ []) : ℕ) * 10 ^ (-((0 : ℕ) : ℤ)))
    = (n : ℚ)
  rw [List.append_nil, ofDigits_digits, Nat.cast_zero, neg_zero, zpow_zero, mul_one, hmagnitude]
  by_cases hneg : n < 0
  · have hcast : (n : ℚ) < 0 := by exact_mod_cast hneg
    rw [decide_eq_true hneg, abs_of_neg hcast]
    show -1 * -(n : ℚ) = n
    ring
  · have hcast : (0 : ℚ) ≤ n := by exact_mod_cast not_lt.1 hneg
    rw [decide_eq_false hneg, abs_of_nonneg hcast]
    exact one_mul _

end Layout

end SchoolMath.Decimal
