import Mathlib
import SchoolMath.Proofs.Decimal.Layout
import SchoolMath.Proofs.Decimal.Rounded
import SchoolMath.Proofs.Number.Value
import SchoolMath.Proofs.Number.Whole

/-!
# `Decimal.Display` — the text of a number for people

A finite double is shown as the canonical decimal of its exact value, rounded to the nearest millionth
(`display_writesRounded`). The program has two ways to it: a whole number below a limit is written with
its digits (`writesRounded_integerText`), any other value with six decimals, the zeros at the end taken
away (`writesRounded_trimmed`). Canonical decimals are told apart by their values, so the ways agree
where both could be taken, and the limit does not show. A larger number is never shown as a smaller
decimal, since neither the values nor their rounding change the order.
-/

namespace SchoolMath.Decimal

/-! ## The specification -/

/-- The text is a canonical decimal with at most `places` decimals, and read as an exact number it is
the multiple of `10 ^ -places` nearest to `q`, of two equally near ones the one with the even last
digit. -/
def WritesRounded (places : Nat) (q : ℚ) (text : List Char) : Prop :=
  ∃ (l : Layout) (n : ℤ), text = l.text ∧ l.IsCanonical places ∧
    IsNearest (q * 10 ^ places) n ∧ readExact? text = some ((n : ℚ) / 10 ^ places)

/-- No other canonical decimal is the rounded value. -/
theorem WritesRounded.unique {places : Nat} {q : ℚ} {text text' : List Char} (hplaces : 0 < places)
    (h : WritesRounded places q text) (h' : WritesRounded places q text') : text = text' := by
  obtain ⟨l, m, rfl, hcanonical, hnearest, hread⟩ := h
  obtain ⟨l', n, rfl, hcanonical', hnearest', hread'⟩ := h'
  obtain rfl := hnearest.unique hnearest'
  rw [hcanonical.readExact?_text, Option.some_inj] at hread
  rw [hcanonical'.readExact?_text, Option.some_inj] at hread'
  rw [hcanonical.eq_of_value_eq hplaces hcanonical' (hread.trans hread'.symm)]

/-- Rounded decimals are in the order of the values. -/
theorem WritesRounded.le {places : Nat} {q r : ℚ} {text text' : List Char}
    (h : WritesRounded places q text) (h' : WritesRounded places r text') (hle : q ≤ r) :
    ∃ a b, readExact? text = some a ∧ readExact? text' = some b ∧ a ≤ b := by
  obtain ⟨-, m, -, -, hnearest, hread⟩ := h
  obtain ⟨-, n, -, -, hnearest', hread'⟩ := h'
  have hscaled : q * 10 ^ places ≤ r * 10 ^ places := by gcongr
  have hmn : (m : ℚ) ≤ n := by exact_mod_cast hnearest.le hnearest' hscaled
  exact ⟨_, _, hread, hread', by gcongr⟩

/-! ## Millionths -/

/-- The exact value of a fraction of whole numbers. -/
theorem numerator_div_denominator (significand : Nat) (exponent : ℤ) :
    (numerator significand exponent : ℚ) / denominator exponent = significand * 2 ^ exponent := by
  have hsplit : exponent = exponent.toNat - (-exponent).toNat := by omega
  have hpower : ∀ k : Nat, ((twoTo k : ℕ) : ℚ) = 2 ^ k := fun k => Nat.cast_pow 2 k
  have hnumerator : (numerator significand exponent : ℚ) = significand * 2 ^ exponent.toNat := by
    rw [numerator, Nat.cast_mul, hpower]
  have hdenominator : (denominator exponent : ℚ) = 2 ^ (-exponent).toNat := hpower _
  rw [hnumerator, hdenominator]
  conv_rhs => rw [hsplit, zpow_sub₀ two_ne_zero, zpow_natCast, zpow_natCast]
  rw [mul_div_assoc]

theorem value_finite (negative : Bool) (significand : Nat) (exponent : ℤ) :
    (Binary.finite negative significand exponent).value =
      signFactor negative * (significand * 2 ^ exponent) := rfl

theorem signFactor_false : signFactor false = 1 := rfl

theorem signFactor_true : signFactor true = -1 := rfl

/-- A count of millionths, with its sign the nearest to the value. -/
theorem isNearest_millionths (negative : Bool) (significand : Nat) (exponent : ℤ) :
    ∃ n : ℤ, IsNearest ((Binary.finite negative significand exponent).value * 10 ^ 6) n ∧
      (n : ℚ) = signFactor negative * atPlaces 6 significand exponent ∧
        n.natAbs = atPlaces 6 significand exponent := by
  have hscaled : ((numerator significand exponent * tenTo 6 : ℕ) : ℚ) / denominator exponent =
      significand * 2 ^ exponent * 10 ^ 6 := by
    have hten : ((tenTo 6 : ℕ) : ℚ) = 10 ^ 6 := by norm_num [tenTo]
    rw [Nat.cast_mul, hten, mul_div_right_comm, numerator_div_denominator]
  have hnearest : IsNearest (significand * 2 ^ exponent * 10 ^ 6)
      (atPlaces 6 significand exponent) := by
    rw [← hscaled, atPlaces]
    exact isNearest_roundDiv _ (denominator_pos exponent)
  generalize atPlaces 6 significand exponent = count at hnearest ⊢
  rw [value_finite]
  cases negative with
  | false =>
    rw [signFactor_false, one_mul, one_mul]
    exact ⟨count, hnearest, Int.cast_natCast count, Int.natAbs_natCast count⟩
  | true =>
    refine ⟨-count, ?_, ?_, ?_⟩
    · rw [signFactor_true, neg_one_mul, neg_mul]
      exact hnearest.neg
    · rw [signFactor_true, neg_one_mul, Int.cast_neg, Int.cast_natCast]
    · rw [Int.natAbs_neg, Int.natAbs_natCast]

theorem writesRounded_millionths (negative : Bool) (significand : Nat) (exponent : ℤ) :
    WritesRounded 6 (Binary.finite negative significand exponent).value
      (Layout.ofUnits 6 negative (atPlaces 6 significand exponent)).text := by
  obtain ⟨n, hnearest, hvalue, -⟩ := isNearest_millionths negative significand exponent
  have hcanonical := Layout.isCanonical_ofUnits (by decide : 0 < 6) negative
    (atPlaces 6 significand exponent)
  refine ⟨_, n, rfl, hcanonical, hnearest, ?_⟩
  rw [hcanonical.readExact?_text, Layout.value_ofUnits (by decide), hvalue, mul_div_assoc]

/-! ## The two ways -/

/-- What is taken away at the end stops at the last character that stays. -/
theorem rdropWhile_append_cons {p : Char → Bool} {c : Char} (h : p c = false)
    (front back : List Char) :
    (front ++ c :: back).rdropWhile p = front ++ c :: back.rdropWhile p := by
  induction back using List.reverseRecOn with
  | nil => exact List.rdropWhile_concat_neg _ _ _ (by simp [h])
  | append_singleton back c' ih =>
    rw [← List.cons_append, ← List.append_assoc]
    by_cases hc : p c' = true
    · rw [List.rdropWhile_concat_pos _ _ _ hc, List.rdropWhile_concat_pos _ _ _ hc, ih]
    · rw [List.rdropWhile_concat_neg _ _ _ hc, List.rdropWhile_concat_neg _ _ _ hc,
        List.append_assoc, List.cons_append]

/-- Digits at the end are no points. -/
theorem rdropWhile_point {ds : List Char} (h : AreDigits ds) (hne : ds ≠ []) (front : List Char) :
    (front ++ ds).rdropWhile (· == '.') = front ++ ds := by
  refine List.rdropWhile_eq_self_iff.2 fun hnil hlast => ?_
  rw [List.getLast_append_of_ne_nil hnil hne] at hlast
  have hdigit := h _ (List.getLast_mem hne)
  rw [eq_of_beq hlast] at hdigit
  cases hdigit

theorem fractionText_of_ne_nil {ds : List Char} (h : ds ≠ []) : fractionText ds = '.' :: ds := by
  simp [fractionText, h]

/-- The zeros at the end and then the point are taken away. -/
theorem dropTrailing_sixDecimals (negative : Bool) (n : Nat) :
    dropTrailing '.' (dropTrailingZeros (sixDecimals negative n)) =
      signText negative ++ digits (n / tenTo 6) ++
        fractionText (dropTrailingZeros (paddedDigits 6 (n % tenTo 6))) := by
  have hzeros : dropTrailingZeros (sixDecimals negative n) =
      signText negative ++ digits (n / tenTo 6) ++
        '.' :: dropTrailingZeros (paddedDigits 6 (n % tenTo 6)) :=
    rdropWhile_append_cons rfl _ _
  have hfraction := (Layout.isCanonical_ofUnits (by decide : 0 < 6) negative n).areDigits
  rw [hzeros]
  show List.rdropWhile (· == '.') _ = _
  by_cases hempty : dropTrailingZeros (paddedDigits 6 (n % tenTo 6)) = []
  · rw [hempty, List.rdropWhile_concat_pos _ _ _ rfl,
      rdropWhile_point (areDigits_digits _) Nat.toDigits_ne_nil]
    exact (List.append_nil _).symm
  · rw [fractionText_of_ne_nil hempty, List.append_cons]
    exact rdropWhile_point hfraction hempty _

/-- Only zero is written as `-0`. -/
theorem text_ofUnits_ne {negative : Bool} {n : Nat} (h : n ≠ 0) :
    (Layout.ofUnits 6 negative n).text ≠ ['-', '0'] := by
  intro htext
  have hcanonical := Layout.isCanonical_ofUnits (by decide : 0 < 6) negative n
  have hread := hcanonical.readExact?_text
  have hzero : readExact? ['-', '0'] = some (Layout.value ⟨true, ['0'], []⟩) :=
    Layout.readExact?_text (l := ⟨true, ['0'], []⟩) (AreDigits.zeros 1) (AreDigits.zeros 0)
      (List.cons_ne_nil _ _)
  have hvalue : Layout.value ⟨true, ['0'], []⟩ = 0 := by simp [Layout.value, ofDigits]
  rw [htext, hzero, Option.some_inj, Layout.value_ofUnits (by decide), hvalue] at hread
  have hsign : signFactor negative ≠ 0 := by cases negative <;> norm_num [signFactor]
  have hn : (n : ℚ) / 10 ^ 6 ≠ 0 := div_ne_zero (by exact_mod_cast h) (by norm_num)
  exact mul_ne_zero hsign hn hread.symm

/-- Six decimals without what is superfluous are the canonical decimal. -/
theorem trimmed_sixDecimals (negative : Bool) (n : Nat) :
    trimmed (sixDecimals negative n) = (Layout.ofUnits 6 negative n).text := by
  unfold trimmed
  rw [dropTrailing_sixDecimals]
  by_cases hn : n = 0
  · subst hn
    cases negative <;> decide
  · have hsign : (negative && n != 0) = negative := by simp [hn]
    have htext : signText negative ++ digits (n / tenTo 6) ++
        fractionText (dropTrailingZeros (paddedDigits 6 (n % tenTo 6))) =
          (Layout.ofUnits 6 negative n).text := by
      unfold Layout.text Layout.ofUnits
      rw [hsign]
      rfl
    rw [htext]
    exact if_neg (text_ofUnits_ne hn)

/-- Of the value rounded to six decimals the canonical decimal is left. -/
theorem writesRounded_trimmed (negative : Bool) (significand : Nat) (exponent : ℤ) :
    WritesRounded 6 (Binary.finite negative significand exponent).value
      (trimmed (sixDecimals negative (atPlaces 6 significand exponent))) := by
  rw [trimmed_sixDecimals]
  exact writesRounded_millionths negative significand exponent

/-- The digits of an integer are the canonical decimal. -/
theorem writesRounded_integerText {places : Nat} (n : ℤ) :
    WritesRounded places n (integerText n) := by
  have hcanonical := Layout.isCanonical_integer places n
  have hscaled : ((n : ℚ) * 10 ^ places) = ((n * 10 ^ places : ℤ) : ℚ) := by push_cast; rfl
  refine ⟨⟨n < 0, digits n.natAbs, []⟩, n * 10 ^ places, ?_, hcanonical, ?_, ?_⟩
  · exact (List.append_nil _).symm
  · rw [hscaled]
    apply IsNearest.of_half
    · rw [sub_self, abs_zero]
      norm_num
    · rw [sub_self, abs_zero]
      norm_num
  · have htext : integerText n = (⟨n < 0, digits n.natAbs, []⟩ : Layout).text :=
      (List.append_nil _).symm
    rw [htext, hcanonical.readExact?_text, Layout.value_integer, ← hscaled,
      mul_div_cancel_right₀ _ (by positivity)]

/-! ## Doubles -/

/-- The parts of a finite double. -/
theorem exists_finite {x : Float} (h : x.isFinite = true) :
    ∃ negative significand exponent, Binary.ofFloat x = .finite negative significand exponent := by
  have hfinite : x.toModel.unpack.isFinite = true := h
  rw [Double.ofFloat_eq_ofUnpacked]
  cases hunpack : x.toModel.unpack with
  | notANumber => rw [hunpack] at hfinite; cases hfinite
  | infinity => rw [hunpack] at hfinite; cases hfinite
  | zero sign => exact ⟨_, _, _, rfl⟩
  | finite sign significand exponent => exact ⟨_, _, _, rfl⟩

/-- What is taken for a whole number has its value. -/
theorem value_of_toInt? {b : Binary} {n : ℤ} (h : b.toInt? = some n) : b.value = n := by
  cases b with
  | notANumber => cases h
  | infinite negative => cases h
  | finite negative significand exponent =>
    unfold Binary.toInt? at h
    obtain ⟨hmod, hn⟩ := Option.ite_none_left_eq_some.1 h
    obtain rfl := Option.some.inj hn
    have hquotient : ((numerator significand exponent / denominator exponent : ℕ) : ℚ) =
        significand * 2 ^ exponent := by
      rw [← numerator_div_denominator]
      refine Nat.cast_div (Nat.dvd_of_mod_eq_zero (not_not.1 hmod)) ?_
      exact_mod_cast (denominator_pos exponent).ne'
    rw [value_finite, ← hquotient]
    cases negative with
    | false => rw [signFactor_false, one_mul]; exact (Int.cast_natCast _).symm
    | true => rw [signFactor_true, neg_one_mul]; exact (Int.cast_neg _).symm

/-- Both paths write the canonical decimal. -/
theorem writesRounded_displayBinary (negative : Bool) (significand : Nat) (exponent : ℤ) :
    WritesRounded 6 (Binary.finite negative significand exponent).value
      (displayBinary (.finite negative significand exponent)) := by
  unfold displayBinary
  cases hsmall : (Binary.finite negative significand exponent).toInt?.filter
      fun n => n.natAbs < tenTo 15 with
  | some n =>
    obtain ⟨hn, -⟩ := Option.filter_eq_some_iff.1 hsmall
    rw [value_of_toInt? hn]
    exact writesRounded_integerText n
  | none => exact writesRounded_trimmed negative significand exponent

theorem writesRounded_display {x : Float} (h : x.isFinite = true) :
    WritesRounded 6 (Binary.ofFloat x).value (display x).toList := by
  obtain ⟨negative, significand, exponent, hx⟩ := exists_finite h
  rw [display, hx, String.toList_ofList]
  exact writesRounded_displayBinary negative significand exponent

/-- A finite double is shown as the canonical decimal of its exact value rounded to six decimals, halves
to the even last digit. For a whole number these are its digits; in any case they are the six decimals
without the zeros at the end, a point that is then last, and the sign of zero. What is shown grows with
the number. -/
theorem display_writesRounded {x : Float} (hx : x.isFinite = true) :
    WritesRounded 6 (Binary.ofFloat x).value (display x).toList ∧
      (∀ text, WritesRounded 6 (Binary.ofFloat x).value text → text = (display x).toList) ∧
      (∀ n : ℤ, (Binary.ofFloat x).value = n → (display x).toList = integerText n) ∧
      (∀ n : ℤ, IsNearest ((Binary.ofFloat x).value * 10 ^ 6) n →
        (display x).toList = trimmed (sixDecimals (Binary.ofFloat x).isNegative n.natAbs)) ∧
      ∀ y : Float, y.isFinite = true → x ≤ y → ∃ a b : ℚ,
        readExact? (display x).toList = some a ∧ readExact? (display y).toList = some b ∧ a ≤ b := by
  have hwrites := writesRounded_display hx
  refine ⟨hwrites, fun text htext => htext.unique (by decide) hwrites, ?_, ?_, ?_⟩
  · intro n hn
    rw [hn] at hwrites
    exact hwrites.unique (by decide) (writesRounded_integerText n)
  · intro n hn
    obtain ⟨negative, significand, exponent, hparts⟩ := exists_finite hx
    obtain ⟨m, hnearest, -, hcount⟩ := isNearest_millionths negative significand exponent
    rw [hparts] at hn hwrites
    obtain rfl : n = m := hn.unique hnearest
    rw [hparts, hcount]
    exact hwrites.unique (by decide) (writesRounded_trimmed negative significand exponent)
  · intro y hy hle
    exact hwrites.le (writesRounded_display hy) (Double.value_le_value hx hy hle)

/-- The 128th part lies between two millionths; its text ends in the even digit. -/
theorem display_writesRounded_tie :
    (Float.ofBits 0x3F80000000000000).isFinite = true ∧
      WritesRounded 6 (1 / 128) "0.007812".toList := by
  have hfinite : (Float.ofBits 0x3F80000000000000).isFinite = true := by decide
  have hparts : Binary.ofFloat (Float.ofBits 0x3F80000000000000) =
      .finite false 4503599627370496 (-59) := by decide
  have hvalue : (Binary.ofFloat (Float.ofBits 0x3F80000000000000)).value = 1 / 128 := by
    rw [hparts]
    norm_num [Binary.value]
  have htext : (display (Float.ofBits 0x3F80000000000000)).toList = "0.007812".toList := by
    rw [display, hparts, String.toList_ofList]
    decide
  have h := (display_writesRounded hfinite).1
  rw [hvalue, htext] at h
  exact ⟨hfinite, h⟩

end SchoolMath.Decimal
