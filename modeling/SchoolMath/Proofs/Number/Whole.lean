import SchoolMath.Polynomial.Basic
import SchoolMath.Proofs.Arithmetic.Reading
import SchoolMath.Proofs.Number.Double
import SchoolMath.Proofs.Number.Numeral

/-!
# `Number.Whole` — numbers among which small integers are exact

Doubles hold the integers below `10 ^ 15` exactly, and compute with them exactly as long as a result is
one. `ExactIntegers` says so of a type of numbers: such an integer is shown with its digits and read
from them, known as a natural number, compared by value, and neither adding it to zero nor multiplying
it with one changes it.

A double is shown from its exact value. That of an integer has no fraction, and below the limit it is
shown with its digits (`displayBinary_of_isWhole`).
-/

namespace SchoolMath

/-- Integers with a magnitude below this are exact. -/
def integerLimit : Nat := 1000000000000000

theorem exponentLimit_lt : exponentLimit < integerLimit := by decide

/-! ## Exact values without a fraction -/

namespace Decimal

/-- The exact value of a number that is `n` or, with a sign, `-n`. -/
def Binary.IsWhole (b : Binary) (negative : Bool) (n : Nat) : Prop :=
  ∃ significand exponent, b = .finite negative significand exponent ∧
    numerator significand exponent = n * denominator exponent

theorem denominator_pos (exponent : Int) : 0 < denominator exponent :=
  Nat.pow_pos (by decide)

/-- As a fraction a whole number leaves no remainder. -/
theorem Binary.IsWhole.quotient {b : Binary} {negative : Bool} {n : Nat} (h : b.IsWhole negative n) :
    ∃ significand exponent, b = .finite negative significand exponent ∧
      numerator significand exponent % denominator exponent = 0 ∧
      numerator significand exponent / denominator exponent = n := by
  obtain ⟨significand, exponent, rfl, hwhole⟩ := h
  refine ⟨significand, exponent, rfl, ?_, ?_⟩
  · rw [hwhole, Nat.mul_mod_left]
  · rw [hwhole, Nat.mul_div_cancel n (denominator_pos exponent)]

/-- A whole number is the integer that it is. -/
theorem toInt?_of_isWhole {b : Binary} {negative : Bool} {n : Nat} (h : b.IsWhole negative n) :
    b.toInt? = some (if negative then -(n : Int) else n) := by
  obtain ⟨significand, exponent, rfl, hmod, hdiv⟩ := h.quotient
  simp only [Binary.toInt?, hmod, hdiv]
  rfl

/-- A whole number that is not negative is the natural number that it is. -/
theorem toNat?_of_isWhole {b : Binary} {n : Nat} (h : b.IsWhole false n) : b.toNat? = some n := by
  obtain ⟨significand, exponent, rfl, hmod, hdiv⟩ := h.quotient
  simp only [Binary.toNat?, hmod, hdiv]
  rfl

/-- A whole number below the limit is shown with its digits, and with a sign if it is negative. -/
theorem displayBinary_of_isWhole {b : Binary} {negative : Bool} {n : Nat}
    (h : b.IsWhole negative n) (hn : n < integerLimit) :
    displayBinary b = integerText (if negative then -(n : Int) else n) := by
  have hmagnitude : (if negative then -(n : Int) else n).natAbs = n := by
    cases negative
    · exact Int.natAbs_natCast n
    · exact (Int.natAbs_neg _).trans (Int.natAbs_natCast n)
  have hlimit : integerLimit = tenTo 15 := by decide
  unfold displayBinary
  rw [toInt?_of_isWhole h, Option.filter_some, hmagnitude, ← hlimit, decide_eq_true hn]
  rfl

end Decimal

/-! ## Exact integers -/

/-- The integers below the limit are exact among the numbers. The signs of zeros are left open. -/
structure ExactIntegers (K : Type) [Zero K] [One K] [Add K] [Mul K] [Neg K] [BEq K] [LT K]
    [NatCast K] [Numeral K] [Whole K] : Prop where
  display_natCast : ∀ n < integerLimit,
    Numeral.display (n : K) = String.ofList (Decimal.digits n)
  read_digits : ∀ n < integerLimit, Numeral.read (String.ofList (Decimal.digits n)) = (n : K)
  toNat?_natCast : ∀ n < integerLimit, Whole.toNat? (n : K) = some n
  natCast_zero : ((0 : Nat) : K) = 0
  natCast_one : ((1 : Nat) : K) = 1
  beq_zero : ∀ n < integerLimit, ((n : K) == 0) = (n == 0)
  neg_beq_zero : ∀ n < integerLimit, (-(n : K) == 0) = (n == 0)
  beq_one : ∀ n < integerLimit, ((n : K) == 1) = (n == 1)
  not_natCast_neg : ∀ n < integerLimit, ¬ (n : K) < 0
  neg_natCast_neg : ∀ n < integerLimit, 0 < n → -(n : K) < 0
  neg_neg : ∀ n < integerLimit, - -(n : K) = n
  zero_add : ∀ n < integerLimit, 0 + (n : K) = n
  zero_add_neg : ∀ n < integerLimit, 0 < n → 0 + -(n : K) = -n
  mul_one : ∀ n < integerLimit, (n : K) * 1 = n
  neg_mul_one : ∀ n < integerLimit, -(n : K) * 1 = -n

/-- An integer below the limit, with either sign. -/
def IsInteger {K : Type} [NatCast K] [Neg K] (c : K) : Prop :=
  ∃ n < integerLimit, c = (n : K) ∨ c = -(n : K)

/-! ## Doubles -/

open Double Float.Model.UnpackedFloat

theorem integerLimit_lt : integerLimit < significandLimit := by decide

/-- The exact value of an integer among the doubles. -/
theorem isWhole_ofFloat (s : Sign) {n : Nat} (h : n < significandLimit) :
    (Decimal.Binary.ofFloat (ofInteger s n)).IsWhole (s == .negative) n := by
  have hbits : Decimal.Binary.ofFloat (ofInteger s n) = Decimal.Binary.ofBits
      (pack Float.Model.Format.binary64 (integer s n)).toNat := rfl
  rw [hbits]
  by_cases hzero : n = 0
  · subst hzero
    have hpack : pack Float.Model.Format.binary64 (integer s 0) =
        packComponents Float.Model.Format.binary64 s 0#11 0#52 := rfl
    rw [hpack, ofBits_packComponents s (by decide)]
    exact ⟨0, -1074, rfl, by simp [Decimal.numerator]⟩
  · have hn : 0 < n := Nat.pos_of_ne_zero hzero
    have hshift : shift n ≤ 52 := Nat.sub_le _ _
    have hlow := le_significand hn h
    have hfield := toNat_exponent n
    rw [pack_integer s hn h, ofBits_packComponents s (by omega), if_neg (by omega), hfield,
      toNat_significand hn h]
    -- the exponent is at most zero, so the denominator makes up for the zeros behind the digits
    have hsignificand : Decimal.twoTo 52 + (n * 2 ^ shift n - 2 ^ 52) = n * 2 ^ shift n :=
      Nat.add_sub_cancel' hlow
    have hexponent : ((1075 - shift n : ℕ) : ℤ) - 1075 = -(shift n : ℤ) := by omega
    have hpos : (-(shift n : ℤ)).toNat = 0 := by omega
    have hneg : (- -(shift n : ℤ)).toNat = shift n := by omega
    refine ⟨n * 2 ^ shift n, -(shift n : ℤ), by rw [hsignificand, hexponent], ?_⟩
    rw [Decimal.numerator, Decimal.denominator, hpos, hneg]
    exact Nat.mul_one _

/-- No digit is a capital letter. -/
theorem toLower_of_isDigit {c : Char} (h : c.isDigit = true) : c.toLower = c := by
  refine Char.toLower_eq_of_not_isUpper fun hupper => ?_
  simp only [Char.isDigit, Char.isUpper, Bool.and_eq_true, decide_eq_true_eq,
    UInt32.le_iff_toNat_le] at h hupper
  change 48 ≤ c.toNat ∧ c.toNat ≤ 57 at h
  change 65 ≤ c.toNat ∧ c.toNat ≤ 90 at hupper
  omega

/-- The reader of decimals reads an integer from its digits. -/
theorem read?_digits (n : Nat) :
    Decimal.read? (String.ofList (Decimal.digits n)) = some (n : Float) := by
  have hnumber : Arithmetic.IsNumber (Decimal.digits n) := isNumber_decimalDigits n
  have hdigit : ∀ c ∈ Decimal.digits n, c.isDigit = true :=
    fun c hc => Nat.isDigit_of_mem_toDigits (by decide) (by decide) hc
  have hlower : (Decimal.digits n).map Char.toLower = Decimal.digits n :=
    (List.map_congr_left fun c hc => toLower_of_isDigit (hdigit c hc)).trans (List.map_id _)
  -- a name has a letter
  have hname : ∀ {name : String} {c : Char}, c ∈ name.toList → c.isDigit = false →
      String.ofList (Decimal.digits n) ≠ name := by
    rintro name c hc hletter rfl
    rw [String.toList_ofList] at hc
    rw [hdigit c hc] at hletter
    cases hletter
  have hinf : String.ofList (Decimal.digits n) ≠ "inf" := hname (c := 'i') (by decide) (by decide)
  have hinfinity : String.ofList (Decimal.digits n) ≠ "infinity" :=
    hname (c := 'i') (by decide) (by decide)
  have hnan : String.ofList (Decimal.digits n) ≠ "nan" := hname (c := 'n') (by decide) (by decide)
  have hunsigned : Decimal.readUnsigned? (Decimal.digits n) = some (n : Float) := by
    simp only [Decimal.readUnsigned?, hlower, hinf, hinfinity, hnan, or_self, if_false,
      Arithmetic.readScientific?_of_digits hdigit hnumber.ne_nil, Decimal.ofDigits_digits]
    rfl
  unfold Decimal.read?
  rw [String.toList_ofList, Arithmetic.splitSign_of_isNumber hnumber]
  simp only [hunsigned]
  rfl

/-- The integers below the limit are exact among the doubles. -/
theorem exactIntegers_double : ExactIntegers Float where
  display_natCast n hn := by
    have h := hn.trans integerLimit_lt
    have hdisplay : Numeral.display (n : Float) =
        String.ofList (Decimal.displayBinary (Decimal.Binary.ofFloat n)) := rfl
    rw [hdisplay, natCast_eq_ofInteger h,
      Decimal.displayBinary_of_isWhole (isWhole_ofFloat .positive h) hn]
    have hnonneg : ¬ (n : Int) < 0 := Int.not_lt.2 (Int.natCast_nonneg n)
    exact congrArg String.ofList (Decimal.integerText_of_nonneg hnonneg)
  read_digits n _ := by
    show (Decimal.read? _).getD 0 = _
    rw [read?_digits]
    rfl
  toNat?_natCast n hn := by
    have h := hn.trans integerLimit_lt
    show (Decimal.Binary.ofFloat n).toNat? = _
    rw [natCast_eq_ofInteger h]
    exact Decimal.toNat?_of_isWhole (isWhole_ofFloat .positive h)
  natCast_zero := rfl
  natCast_one := rfl
  beq_zero n hn := by
    have h := hn.trans integerLimit_lt
    rw [natCast_eq_ofInteger h, ofInteger_beq_zero .positive h]
  neg_beq_zero n hn := by
    have h := hn.trans integerLimit_lt
    rw [natCast_eq_ofInteger h, neg_ofInteger _ h, ofInteger_beq_zero _ h]
  beq_one n hn := by
    have h := hn.trans integerLimit_lt
    rw [natCast_eq_ofInteger h, ofInteger_beq_one h]
  not_natCast_neg n hn hneg := by
    have h := hn.trans integerLimit_lt
    rw [natCast_eq_ofInteger h, ofInteger_lt_zero .positive h] at hneg
    cases hneg.1
  neg_natCast_neg n hn hpos := by
    have h := hn.trans integerLimit_lt
    rw [natCast_eq_ofInteger h, neg_ofInteger _ h, ofInteger_lt_zero _ h]
    exact ⟨rfl, hpos.ne'⟩
  neg_neg n hn := by
    have h := hn.trans integerLimit_lt
    rw [natCast_eq_ofInteger h, neg_ofInteger _ h, neg_ofInteger _ h]
    rfl
  zero_add n hn := by
    have h := hn.trans integerLimit_lt
    rw [natCast_eq_ofInteger h, zero_add_ofInteger h (.inl rfl)]
  zero_add_neg n hn hpos := by
    have h := hn.trans integerLimit_lt
    rw [natCast_eq_ofInteger h, neg_ofInteger _ h, zero_add_ofInteger h (.inr hpos)]
  mul_one n hn := by
    have h := hn.trans integerLimit_lt
    rw [natCast_eq_ofInteger h, ofInteger_mul_one _ h]
  neg_mul_one n hn := by
    have h := hn.trans integerLimit_lt
    rw [natCast_eq_ofInteger h, neg_ofInteger _ h, ofInteger_mul_one _ h]

end SchoolMath
