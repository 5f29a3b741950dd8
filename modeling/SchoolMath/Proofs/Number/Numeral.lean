import Mathlib
import SchoolMath.Decimal.Notation
import SchoolMath.Number.Basic
import SchoolMath.Proofs.Arithmetic.Scanner

/-!
# `Number.Numeral` — numbers whose texts read back

What the reader of expressions is told about a number is its text. `ReadableNumerals` says what is
relied on of such texts: a number without a sign is written with digits and at most one point, the
text of a negative number is that of its absolute value behind a minus sign, and what is read are
the numbers that were written. Infinite and undefined numbers and the negative zero are left out,
since no numeral of the grammar stands for them.

The integers are numbers with such texts.
-/

namespace SchoolMath

open Arithmetic

/-! ## What is relied on -/

/-- A finite number that is written without a sign. -/
structure IsUnsigned {K : Type} [Finiteness K] [Zero K] [Neg K] [LT K] (c : K) : Prop where
  finite : isFinite c = true
  not_negative : ¬ c < 0
  ne_negativeZero : c ≠ -0

/-- Finite numbers are written as decimals that read back. -/
structure ReadableNumerals (K : Type) [Numeral K] [Finiteness K] [Zero K] [Neg K] [LT K] :
    Prop where
  isNumber_write : ∀ c : K, IsUnsigned c → IsNumber (Numeral.write c).toList
  read_write : ∀ c : K, IsUnsigned c → Numeral.read (Numeral.write c) = c
  write_negative : ∀ c : K, isFinite c = true → c < 0 →
    Numeral.write c = "-" ++ Numeral.write (-c)
  isUnsigned_neg : ∀ c : K, isFinite c = true → c < 0 → IsUnsigned (-c)

/-! ## Integers -/

/-- Integers are written with their digits. -/
instance numeralInt : Numeral ℤ where
  read text := Decimal.ofDigits text.toList
  write n := String.ofList (Decimal.integerText n)
  display n := String.ofList (Decimal.integerText n)

instance finitenessInt : Finiteness ℤ := ⟨fun _ => true⟩

/-- The digits of a number are those of its value. -/
theorem Decimal.ofDigits_digits (n : Nat) : ofDigits (digits n) = n :=
  Nat.ofDigitChars_toDigits (by decide) (by decide)

/-- The digits of a natural number are a number of the grammar. -/
theorem isNumber_decimalDigits (n : Nat) : IsNumber (Decimal.digits n) :=
  isNumber_digits (fun _ hc => Nat.isDigit_of_mem_toDigits (by decide) (by decide) hc)
    Nat.toDigits_ne_nil

/-- An integer that is not negative is written with the digits of its absolute value. -/
theorem Decimal.integerText_of_nonneg {n : ℤ} (h : ¬ n < 0) : integerText n = digits n.natAbs := by
  unfold integerText
  rw [decide_eq_false h]
  rfl

theorem write_of_nonneg {n : ℤ} (h : ¬ n < 0) :
    Numeral.write n = String.ofList (Decimal.digits n.natAbs) := by
  show String.ofList (Decimal.integerText n) = _
  rw [Decimal.integerText_of_nonneg h]

/-- The texts of integers read back. -/
theorem readableNumerals_int : ReadableNumerals ℤ where
  isNumber_write n h := by
    rw [write_of_nonneg h.not_negative, String.toList_ofList]
    exact isNumber_decimalDigits n.natAbs
  read_write n h := by
    rw [write_of_nonneg h.not_negative]
    show ((Decimal.ofDigits (String.ofList (Decimal.digits n.natAbs)).toList : ℕ) : ℤ) = n
    rw [String.toList_ofList, Decimal.ofDigits_digits]
    exact Int.natAbs_of_nonneg (not_lt.1 h.not_negative)
  write_negative n _ h := by
    have hneg : ¬ -n < 0 := by omega
    rw [write_of_nonneg hneg, Int.natAbs_neg]
    show String.ofList (Decimal.integerText n) = _
    rw [Decimal.integerText, decide_eq_true h]
    exact String.ofList_append
  isUnsigned_neg n _ h := ⟨rfl, by omega, by omega⟩

end SchoolMath
