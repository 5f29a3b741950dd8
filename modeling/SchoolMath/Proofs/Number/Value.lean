import Mathlib
import SchoolMath.Proofs.Number.Double

/-!
# `Number.Value` — the rational number that a double is

A finite double is a significand times a power of two (`Binary.value`). Its significand has 53 binary
digits, or the exponent is the least one (`IsDouble`); so of two doubles the one with the larger
exponent has the larger magnitude, and the order of doubles, which goes by exponent and significand,
is that of their values (`value_le_value`).
-/

namespace SchoolMath

open Float.Model Float.Model.UnpackedFloat

namespace Decimal.Binary

/-- The rational number; zero for what is not finite. -/
def value : Binary → ℚ
  | .finite negative significand exponent =>
    (if negative then -1 else 1) * (significand * 2 ^ exponent)
  | _ => 0

/-- A number with a minus sign, zero included. -/
def isNegative : Binary → Bool
  | .finite negative _ _ => negative
  | .infinite negative => negative
  | .notANumber => false

/-- The parts in the logic's own form of a double. -/
def ofUnpacked : UnpackedFloat → Binary
  | .notANumber => .notANumber
  | .infinity sign => .infinite (sign == .negative)
  | .zero sign => .finite (sign == .negative) 0 (-1074)
  | .finite sign significand exponent _ => .finite (sign == .negative) significand exponent

end Decimal.Binary

open Decimal Decimal.Binary

/-- The significands and exponents of doubles: only the least exponent has significands with fewer
than 53 binary digits. -/
structure IsDouble (significand : Nat) (exponent : ℤ) : Prop where
  significand_lt : significand < 2 ^ 53
  least : -1074 ≤ exponent
  full : -1074 < exponent → 2 ^ 52 ≤ significand

/-- The parts of a finite number are those of a double. -/
def IsUnpackedDouble : UnpackedFloat → Prop
  | .finite _ significand exponent _ => IsDouble significand exponent
  | _ => True

namespace Double

/-! ## The fields of a bit pattern -/

/-- The bit patterns of doubles. -/
abbrev Bits : Type := BitVec Format.binary64.numBits

theorem toNat_unpackSign (bits : Bits) :
    (unpackSign bits).toNat = bits.toNat / 2 ^ 63 % 2 := by
  rw [unpackSign, BitVec.toNat_cast, BitVec.extractLsb_toNat, Nat.shiftRight_eq_div_pow]
  rfl

theorem toNat_unpackExponent (bits : Bits) :
    (unpackExponent bits).toNat = bits.toNat / 2 ^ 52 % 2 ^ 11 := by
  rw [unpackExponent, BitVec.toNat_cast, BitVec.extractLsb_toNat, Nat.shiftRight_eq_div_pow]
  rfl

theorem toNat_unpackMantissa (bits : Bits) :
    (unpackMantissa bits).toNat = bits.toNat % 2 ^ 52 := by
  rw [unpackMantissa, BitVec.toNat_cast, BitVec.extractLsb_toNat]
  rfl

theorem sign_eq_negative (bit : BitVec 1) :
    (bit.toNat == 1) = (Sign.ofBitVec bit == .negative) := by
  revert bit
  decide

/-- The significand of a normal number has a binary digit that is not written. -/
theorem toNat_one_append (mantissa : BitVec 52) :
    (1#1 ++ mantissa).toNat = 2 ^ 52 + mantissa.toNat := by
  rw [toNat_append]
  exact congrArg (· + mantissa.toNat) (Nat.one_mul _)

theorem exponentBias_eq : (Format.binary64.exponentBias : ℤ) + (52 : ℕ) = 1075 := by decide

/-- The exact value is read from the fields that the logic's model reads. -/
theorem ofBits_toNat (bits : Bits) :
    Binary.ofBits bits.toNat = ofUnpacked (UnpackedFloat.unpack Format.binary64 bits) := by
  have h63 : twoTo 63 = 2 ^ 63 := rfl
  have h52 : twoTo 52 = 2 ^ 52 := rfl
  have h11 : twoTo 11 = 2 ^ 11 := rfl
  have hlargest : unpackExponent bits = -1#11 ↔ (unpackExponent bits).toNat = 2 ^ 11 - 1 :=
    BitVec.toNat_inj.symm
  have hleast : unpackExponent bits = 0#11 ↔ (unpackExponent bits).toNat = 0 :=
    BitVec.toNat_inj.symm
  have hzero : unpackMantissa bits = 0#52 ↔ (unpackMantissa bits).toNat = 0 :=
    BitVec.toNat_inj.symm
  unfold Binary.ofBits UnpackedFloat.unpack
  simp only [h63, h52, h11, ← toNat_unpackSign, ← toNat_unpackExponent, ← toNat_unpackMantissa,
    sign_eq_negative, hlargest, hleast, exponentBias_eq, toNat_one_append]
  by_cases htop : (unpackExponent bits).toNat = 2 ^ 11 - 1
  · by_cases hnone : (unpackMantissa bits).toNat = 0
    · simp only [if_pos htop, if_pos hnone, if_pos (hzero.2 hnone), ofUnpacked]
    · simp only [if_pos htop, if_neg hnone, if_neg (hzero.not.2 hnone), ofUnpacked]
  · by_cases hbottom : (unpackExponent bits).toNat = 0
    · by_cases hnone : (unpackMantissa bits).toNat = 0
      · simp only [if_neg htop, if_pos hbottom, dif_pos (hzero.2 hnone), ofUnpacked, hnone]
      · simp only [hbottom, dif_neg (hzero.not.2 hnone), ofUnpacked]
        rfl
    · simp only [if_neg htop, if_neg hbottom, ofUnpacked]

theorem ofFloat_eq_ofUnpacked (x : Float) : Binary.ofFloat x = ofUnpacked x.toModel.unpack :=
  ofBits_toNat x.toModel.toBits.toBitVec

theorem isUnpackedDouble_unpack (bits : Bits) :
    IsUnpackedDouble (UnpackedFloat.unpack Format.binary64 bits) := by
  have hmantissa : (unpackMantissa bits).toNat < 2 ^ 52 := (unpackMantissa bits).isLt
  unfold UnpackedFloat.unpack
  simp only [exponentBias_eq, toNat_one_append]
  split_ifs with hlargest hzero hleast hzero
  · trivial
  · trivial
  · trivial
  · have hbottom : (unpackExponent bits).toNat = 0 := congrArg BitVec.toNat hleast
    exact ⟨by omega, by omega, fun h => by omega⟩
  · have hbottom : (unpackExponent bits).toNat ≠ 0 := fun h => hleast (BitVec.toNat_inj.1 h)
    exact ⟨by omega, by omega, fun _ => by omega⟩

/-! ## The order -/

/-- Magnitudes are ordered by the exponent first. -/
theorem magnitude_le {m n : Nat} {d e : ℤ} (hm : IsDouble m d) (hn : IsDouble n e)
    (h : ((compare d e).then (compare m n)).isLE = true) : (m : ℚ) * 2 ^ d ≤ n * 2 ^ e := by
  rw [Ordering.isLE_then_iff_or] at h
  rcases h with hlt | ⟨heq, hle⟩
  · have hde : d < e := Int.compare_eq_lt.1 hlt
    have hsmall : (m : ℚ) ≤ 2 ^ 53 := by exact_mod_cast hm.significand_lt.le
    have hlarge : (2 : ℚ) ^ 52 ≤ n := by exact_mod_cast hn.full (hm.least.trans_lt hde)
    calc (m : ℚ) * 2 ^ d ≤ 2 ^ 53 * 2 ^ d := by gcongr
      _ = 2 ^ 52 * 2 ^ (d + 1) := by rw [zpow_add_one₀ two_ne_zero]; ring
      _ ≤ n * 2 ^ e := by gcongr; exacts [by norm_num, hde]
  · obtain rfl : d = e := Int.compare_eq_eq.1 heq
    have hmn : (m : ℚ) ≤ n := by exact_mod_cast Nat.isLE_compare.1 hle
    gcongr

theorem value_ofUnpacked_zero (s : Sign) : (ofUnpacked (.zero s)).value = 0 := by
  cases s <;> simp [ofUnpacked, value]

theorem value_ofUnpacked_positive (m : Nat) (e : ℤ) (h : 0 < m) :
    (ofUnpacked (.finite .positive m e h)).value = m * 2 ^ e := by
  show (1 : ℚ) * _ = _
  rw [one_mul]

theorem value_ofUnpacked_negative (m : Nat) (e : ℤ) (h : 0 < m) :
    (ofUnpacked (.finite .negative m e h)).value = -(m * 2 ^ e) := by
  show (-1 : ℚ) * _ = _
  rw [neg_one_mul]

theorem value_ofUnpacked_le {u v : UnpackedFloat} (hu : IsUnpackedDouble u) (hv : IsUnpackedDouble v)
    (hfiniteu : u.isFinite = true) (hfinitev : v.isFinite = true) (h : u.le v = true) :
    (ofUnpacked u).value ≤ (ofUnpacked v).value := by
  have hmagnitude : ∀ (m : Nat) (e : ℤ), (0 : ℚ) ≤ m * 2 ^ e := fun m e => by positivity
  match u, v with
  | .notANumber, _ => cases hfiniteu
  | .infinity _, _ => cases hfiniteu
  | _, .notANumber => cases hfinitev
  | _, .infinity _ => cases hfinitev
  | .zero s, .zero s' => rw [value_ofUnpacked_zero, value_ofUnpacked_zero]
  | .zero s, .finite .positive n e' hn =>
    rw [value_ofUnpacked_zero, value_ofUnpacked_positive]
    exact hmagnitude n e'
  | .zero _, .finite .negative .. => cases h
  | .finite .positive .., .zero _ => cases h
  | .finite .negative m e hm, .zero s' =>
    rw [value_ofUnpacked_zero, value_ofUnpacked_negative]
    exact neg_nonpos.2 (hmagnitude m e)
  | .finite .positive .., .finite .negative .. => cases h
  | .finite .negative m e hm, .finite .positive n e' hn =>
    rw [value_ofUnpacked_negative, value_ofUnpacked_positive]
    exact (neg_nonpos.2 (hmagnitude m e)).trans (hmagnitude n e')
  | .finite .positive m e hm, .finite .positive n e' hn =>
    rw [value_ofUnpacked_positive, value_ofUnpacked_positive]
    exact magnitude_le hu hv h
  | .finite .negative m e hm, .finite .negative n e' hn =>
    rw [value_ofUnpacked_negative, value_ofUnpacked_negative]
    -- the larger magnitude is the smaller number
    have hswap : ((compare e' e).then (compare n m)).isLE = true := by
      have hcompare : (((compare e e').then (compare m n)).swap).isLE = true := h
      rwa [Ordering.swap_then, Int.compare_swap, Nat.compare_swap] at hcompare
    exact neg_le_neg (magnitude_le hv hu hswap)

/-- The order of doubles is that of their values. -/
theorem value_le_value {x y : Float} (hx : x.isFinite = true) (hy : y.isFinite = true)
    (h : x ≤ y) : (Binary.ofFloat x).value ≤ (Binary.ofFloat y).value := by
  rw [ofFloat_eq_ofUnpacked, ofFloat_eq_ofUnpacked]
  exact value_ofUnpacked_le (isUnpackedDouble_unpack _) (isUnpackedDouble_unpack _) hx hy (of_decide_eq_true h)

end Double

end SchoolMath
