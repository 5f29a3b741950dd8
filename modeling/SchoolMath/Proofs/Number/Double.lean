import Mathlib
import SchoolMath.Number.Double

/-!
# `Number.Double` — the integers among the doubles

An integer whose magnitude has at most 53 binary digits is a double. Its significand is the magnitude,
followed by as many binary zeros as make it 53 digits (`integer`). Rounding only ever takes such zeros
away from an integer (`roundWithAccuracy_integer`), so it is read exactly, and multiplying with one is
exact.
-/

namespace SchoolMath.Double

open Float.Model Float.Model.UnpackedFloat

/-- The integers with a magnitude below this are doubles. -/
def significandLimit : Nat := 9007199254740992

/-- How many binary digits `n` lacks of a significand. -/
def shift (n : Nat) : Nat := 52 - n.log2

theorem log2_le {n : Nat} (h : n < significandLimit) : n.log2 ≤ 52 := by
  by_cases hzero : n = 0
  · subst hzero
    decide
  · exact Nat.lt_succ_iff.1 ((Nat.log2_lt hzero).2 h)

/-- Binary zeros behind a number. -/
theorem log2_mul_two_pow {n : Nat} (h : n ≠ 0) (k : Nat) : (n * 2 ^ k).log2 = n.log2 + k := by
  have hpow : 0 < 2 ^ k := Nat.two_pow_pos k
  obtain ⟨hle, hlt⟩ := (Nat.log2_eq_iff h).1 rfl
  refine (Nat.log2_eq_iff (Nat.mul_pos (Nat.pos_of_ne_zero h) hpow).ne').2 ⟨?_, ?_⟩
  · rw [Nat.pow_add]
    exact Nat.mul_le_mul_right _ hle
  · rw [Nat.add_right_comm, Nat.pow_add]
    exact Nat.mul_lt_mul_of_pos_right hlt hpow

/-- The parts of the double that is an integer. -/
def integer (s : Sign) (n : Nat) : UnpackedFloat :=
  if h : n = 0 then .zero s
  else .finite s (n * 2 ^ shift n) (-shift n)
    (Nat.mul_pos (Nat.pos_of_ne_zero h) (Nat.two_pow_pos _))

/-! ## Rounding -/

/-- Binary zeros are taken away without a remainder. -/
theorem shiftRight_mul_two_pow (m k : Nat) :
    (⟨m * 2 ^ k, false, false⟩ : ExtendedMantissa) >>> k = ⟨m, false, false⟩ := by
  show Nat.repeat ExtendedMantissa.shiftRightOne k _ = _
  induction k generalizing m with
  | zero => simp [Nat.repeat]
  | succ k ih =>
    have hsplit : m * 2 ^ (k + 1) = m * 2 * 2 ^ k := by rw [Nat.pow_succ', ← Nat.mul_assoc]
    rw [hsplit]
    show ExtendedMantissa.shiftRightOne (Nat.repeat ExtendedMantissa.shiftRightOne k _) = _
    rw [ih]
    simp [ExtendedMantissa.shiftRightOne]

/-- The exponent of an integer. -/
theorem targetExponent_integer {n k : Nat} (hn : 0 < n) (hlt : n < significandLimit) :
    Format.binary64.targetExponent (totalExponent (n * 2 ^ k) (-(k : ℤ))) = -(shift n : ℤ) := by
  have hlog := log2_le hlt
  have hmin : Format.binary64.minExponent = -1074 := by decide
  have hbits : Format.binary64.mantissaBits = 53 := by decide
  rw [Format.targetExponent, totalExponent, log2_mul_two_pow hn.ne', hmin, hbits, shift]
  omega

/-- An integer followed by at least as many binary zeros as it needs. -/
theorem shiftToTargetExponent_integer {n k : Nat} (hn : 0 < n) (hlt : n < significandLimit)
    (hk : shift n ≤ k) :
    shiftToTargetExponent Format.binary64 (n * 2 ^ k) (-(k : ℤ)) .exact =
      (⟨n * 2 ^ shift n, false, false⟩, -(shift n : ℤ)) := by
  have hamount : (-(shift n : ℤ) - -(k : ℤ)).toNat = k - shift n := by omega
  have hexponent : -(k : ℤ) + (k - shift n : ℕ) = -(shift n : ℤ) := by omega
  have hsplit : n * 2 ^ k = n * 2 ^ shift n * 2 ^ (k - shift n) := by
    rw [Nat.mul_assoc, ← Nat.pow_add, Nat.add_sub_cancel' hk]
  unfold shiftToTargetExponent shiftToExponent
  simp only [targetExponent_integer hn hlt, hamount, hexponent,
    ExtendedMantissa.ofMantissaAndAccuracy]
  rw [hsplit, shiftRight_mul_two_pow]

/-- Rounding an integer gives the integer. -/
theorem roundWithAccuracy_integer (s : Sign) {n k : Nat} (hn : 0 < n) (hlt : n < significandLimit)
    (hk : shift n ≤ k) :
    roundWithAccuracy Format.binary64 s (n * 2 ^ k) (-(k : ℤ)) .exact = integer s n := by
  have hpos : n * 2 ^ shift n ≠ 0 := (Nat.mul_pos hn (Nat.two_pow_pos _)).ne'
  unfold roundWithAccuracy integer
  simp only [shiftToTargetExponent_integer hn hlt hk, ExtendedMantissa.roundedMantissa,
    ExtendedMantissa.accuracy, Accuracy.roundToNearestEven,
    shiftToTargetExponent_integer hn hlt le_rfl, dif_neg hpos, dif_neg hn.ne']

/-! ## Operations -/

/-- A natural number is taken exactly. -/
theorem ofNat_eq_integer {n : Nat} (hlt : n < significandLimit) :
    UnpackedFloat.ofNat Format.binary64 n = integer .positive n := by
  by_cases hzero : n = 0
  · subst hzero
    rfl
  · have hn : 0 < n := Nat.pos_of_ne_zero hzero
    have hgt : compare (n : ℤ) 0 = .gt := Int.compare_eq_gt.2 (by omega)
    have htarget : Format.binary64.targetExponent (totalExponent n 0) = -(shift n : ℤ) := by
      simpa using targetExponent_integer (k := 0) hn hlt
    have hamount : (- -(shift n : ℤ)).toNat = shift n := by omega
    unfold UnpackedFloat.ofNat UnpackedFloat.ofInt UnpackedFloat.normalize UnpackedFloat.round
    simp only [hgt, Int.toNat_natCast, htarget, decreaseExponent, hamount, Int.zero_sub,
      Nat.shiftLeft_eq]
    exact roundWithAccuracy_integer .positive hn hlt le_rfl

/-- A product of integers is exact. -/
theorem mul_integer (s s' : Sign) {m n : Nat} (h : m * n < significandLimit) :
    UnpackedFloat.mul Format.binary64 (integer s m) (integer s' n) = integer (s * s') (m * n) := by
  by_cases hm : m = 0
  · subst hm
    by_cases hn : n = 0 <;> simp [integer, hn, UnpackedFloat.mul]
  · by_cases hn : n = 0
    · simp [integer, hm, hn, UnpackedFloat.mul]
    · have hpos : 0 < m * n := Nat.mul_pos (Nat.pos_of_ne_zero hm) (Nat.pos_of_ne_zero hn)
      have hexponent : -(shift m : ℤ) + -(shift n : ℤ) = -((shift m + shift n : ℕ) : ℤ) := by omega
      have hmantissa : m * 2 ^ shift m * (n * 2 ^ shift n) = m * n * 2 ^ (shift m + shift n) := by
        rw [Nat.pow_add, Nat.mul_mul_mul_comm]
      have hshift : shift (m * n) ≤ shift m + shift n := by
        have hle : m.log2 ≤ (m * n).log2 := by
          refine (Nat.le_log2 hpos.ne').2 ((Nat.log2_self_le hm).trans ?_)
          exact Nat.le_mul_of_pos_right m (Nat.pos_of_ne_zero hn)
        unfold shift
        omega
      simp only [integer, dif_neg hm, dif_neg hn, UnpackedFloat.mul, hmantissa, hexponent]
      rw [roundWithAccuracy_integer _ hpos h hshift, integer]

theorem neg_integer (s : Sign) (n : Nat) : (integer s n).neg = integer (-s) n := by
  by_cases hn : n = 0 <;> simp [integer, hn, UnpackedFloat.neg]

/-- Adding an integer to zero gives the integer, unless it is a zero with a minus. -/
theorem zero_add_integer {s : Sign} {n : Nat} (h : s = .positive ∨ 0 < n) :
    UnpackedFloat.add Format.binary64 (integer .positive 0) (integer s n) = integer s n := by
  by_cases hn : n = 0
  · obtain rfl : s = .positive := h.resolve_right hn.not_gt
    subst hn
    rfl
  · simp [integer, hn, UnpackedFloat.add]

/-- The parts of an integer determine it. -/
theorem integer_injective {s s' : Sign} {m n : Nat} (h : integer s m = integer s' n) : m = n := by
  unfold integer at h
  split_ifs at h with hm hn hn
  · rw [hm, hn]
  · obtain ⟨-, hmantissa, hexponent⟩ := UnpackedFloat.finite.inj h
    have hshift : shift m = shift n := by omega
    rw [hshift] at hmantissa
    exact Nat.eq_of_mul_eq_mul_right (Nat.two_pow_pos _) hmantissa

/-- Integers that are not negative are the same if they compare so. -/
theorem beq_integer (m n : Nat) :
    (integer .positive m).beq (integer .positive n) = (m == n) := by
  have hnumber : ∀ k, integer .positive k ≠ .notANumber := fun k h => by
    unfold integer at h
    split_ifs at h
  have hsign : ∀ k, integer .positive k ≠ .zero .negative := fun k h => by
    unfold integer at h
    split_ifs at h
    cases h
  rw [Bool.eq_iff_iff, beq_iff_ne_notANumber_and_eq, beq_iff_eq]
  simp only [ne_eq, hnumber, hsign, not_false_eq_true, and_false, false_and, or_false, true_and]
  exact ⟨integer_injective, congrArg _⟩

/-- The order of an integer and zero. -/
theorem compare_integer_zero (s : Sign) (n : Nat) :
    (integer s n).compare (integer .positive 0) =
      some (if n = 0 then .eq else match s with | .positive => .gt | .negative => .lt) := by
  by_cases hn : n = 0
  · subst hn
    rfl
  · cases s <;> simp [integer, hn, UnpackedFloat.compare]

/-! ## Packing -/

/-- The significand of an integer other than zero has 53 binary digits. -/
theorem log2_significand {n : Nat} (hn : 0 < n) (hlt : n < significandLimit) :
    (n * 2 ^ shift n).log2 = 52 := by
  have hle := log2_le hlt
  rw [log2_mul_two_pow hn.ne', shift]
  omega

/-- The value of two bit vectors one behind the other. -/
theorem toNat_append {a b : Nat} (x : BitVec a) (y : BitVec b) :
    (x ++ y).toNat = x.toNat * 2 ^ b + y.toNat := by
  rw [BitVec.toNat_append, ← Nat.shiftLeft_add_eq_or_of_lt y.isLt, Nat.shiftLeft_eq]

theorem le_significand {n : Nat} (hn : 0 < n) (hlt : n < significandLimit) :
    2 ^ 52 ≤ n * 2 ^ shift n := by
  have hpos : n * 2 ^ shift n ≠ 0 := (Nat.mul_pos hn (Nat.two_pow_pos _)).ne'
  exact ((Nat.log2_eq_iff hpos).1 (log2_significand hn hlt)).1

/-- The field of the significand leaves out its first digit. -/
theorem toNat_significand {n : Nat} (hn : 0 < n) (hlt : n < significandLimit) :
    (BitVec.ofNat 52 (n * 2 ^ shift n)).toNat = n * 2 ^ shift n - 2 ^ 52 := by
  have hpos : n * 2 ^ shift n ≠ 0 := (Nat.mul_pos hn (Nat.two_pow_pos _)).ne'
  obtain ⟨hlow, hhigh⟩ := (Nat.log2_eq_iff hpos).1 (log2_significand hn hlt)
  rw [BitVec.toNat_ofNat]
  omega

/-- The field of the exponent. -/
theorem toNat_exponent (n : Nat) : (BitVec.ofNat 11 (1075 - shift n)).toNat = 1075 - shift n := by
  rw [BitVec.toNat_ofNat]
  exact Nat.mod_eq_of_lt (by omega)

/-- The fields of an integer other than zero. -/
theorem pack_integer (s : Sign) {n : Nat} (hn : 0 < n) (hlt : n < significandLimit) :
    UnpackedFloat.pack Format.binary64 (integer s n) =
      packComponents Format.binary64 s (BitVec.ofNat 11 (1075 - shift n))
        (BitVec.ofNat 52 (n * 2 ^ shift n)) := by
  have hexponent : (-(shift n : ℤ) + (Format.binary64.exponentBias : ℤ) + (52 : ℕ)).toNat =
      1075 - shift n := by
    have hbias : Format.binary64.exponentBias = 1023 := by decide
    rw [hbias]
    omega
  have hrange : ¬ 2 ^ 11 ≤ 1075 - shift n + 1 := by omega
  have hbits : 52 + 1 = Format.binary64.mantissaBits := by decide
  simp only [integer, dif_neg hn.ne', UnpackedFloat.pack, hexponent, if_neg hrange,
    log2_significand hn hlt, if_pos hbits]

/-- Taking an integer apart again. -/
theorem unpack_pack_integer (s : Sign) {n : Nat} (hlt : n < significandLimit) :
    UnpackedFloat.unpack Format.binary64 (UnpackedFloat.pack Format.binary64 (integer s n)) =
      integer s n := by
  by_cases hzero : n = 0
  · subst hzero
    exact unpack_packedZero
  · have hn : 0 < n := Nat.pos_of_ne_zero hzero
    have hshift : shift n ≤ 52 := Nat.sub_le _ _
    have hlow := le_significand hn hlt
    have hfield := toNat_exponent n
    have hlargest : BitVec.ofNat 11 (1075 - shift n) ≠ -1#11 := by
      intro h
      have h := congrArg BitVec.toNat h
      rw [hfield] at h
      have hall : (-1#11).toNat = 2047 := by decide
      omega
    have hleast : BitVec.ofNat 11 (1075 - shift n) ≠ 0#11 := by
      intro h
      have h := congrArg BitVec.toNat h
      rw [hfield] at h
      have hnone : (0#11).toNat = 0 := by decide
      omega
    have hmantissa : (1#1 ++ BitVec.ofNat 52 (n * 2 ^ shift n)).toNat = n * 2 ^ shift n := by
      rw [toNat_append, toNat_significand hn hlt]
      have hone : (1#1).toNat = 1 := rfl
      omega
    have hexponent : ((1075 - shift n : ℕ) : ℤ) - ((Format.binary64.exponentBias : ℤ) + (52 : ℕ)) =
        -(shift n : ℤ) := by
      have hbias : Format.binary64.exponentBias = 1023 := by decide
      rw [hbias]
      omega
    rw [pack_integer s hn hlt, UnpackedFloat.unpack]
    simp only [unpackExponent_packComponents, unpackMantissa_packComponents,
      unpackSign_packComponents, Sign.ofBitVec_toBitVec, hfield, if_neg hlargest, if_neg hleast,
      integer, dif_neg hzero, hmantissa, hexponent]

/-! ## Doubles -/

/-- The double that is an integer. -/
def ofInteger (s : Sign) (n : Nat) : Float := ⟨Float.Model.pack (integer s n)⟩

theorem unpack_ofInteger (s : Sign) {n : Nat} (h : n < significandLimit) :
    (ofInteger s n).toModel.unpack = integer s n :=
  unpack_pack_integer s h

/-- Natural numbers are converted exactly. -/
theorem natCast_eq_ofInteger {n : Nat} (h : n < significandLimit) :
    (n : Float) = ofInteger .positive n := by
  have hword : n.toUInt64.toNat = n := by
    rw [UInt64.toNat_ofNat']
    exact Nat.mod_eq_of_lt (h.trans (by decide))
  have hrange : n < 2 ^ 53 ∧ 0 ≤ 22 := ⟨h, by decide⟩
  have hone : (Float.Model.ofBits 4607182418800017408).unpack = integer .positive 1 := rfl
  have hinteger : (Float.Model.ofUInt64 n.toUInt64).unpack = integer .positive n := by
    have hofNat : UnpackedFloat.ofUInt64 Format.binary64 n.toUInt64 = integer .positive n := by
      rw [UnpackedFloat.ofUInt64, hword, ofNat_eq_integer h]
    rw [Float.Model.ofUInt64, hofNat]
    exact unpack_pack_integer .positive h
  have hproduct : Float.Model.ofUInt64 n.toUInt64 * Float.Model.ofBits 4607182418800017408 =
      Float.Model.pack (integer .positive n) := by
    show Float.Model.pack (UnpackedFloat.mul Format.binary64 _ _) = _
    rw [hinteger, hone, mul_integer _ _ (by rwa [Nat.mul_one]), Nat.mul_one]
    rfl
  show Float.ofScientific n false 0 = _
  unfold Float.ofScientific
  rw [dif_pos hrange]
  exact congrArg Float.ofModel hproduct

theorem neg_ofInteger (s : Sign) {n : Nat} (h : n < significandLimit) :
    -ofInteger s n = ofInteger (-s) n := by
  show Float.ofModel (Float.Model.pack (ofInteger s n).toModel.unpack.neg) = _
  rw [unpack_ofInteger s h, neg_integer]
  rfl

theorem zero_eq_ofInteger : (0 : Float) = ofInteger .positive 0 :=
  natCast_eq_ofInteger (n := 0) (by decide)

theorem one_eq_ofInteger : (1 : Float) = ofInteger .positive 1 :=
  natCast_eq_ofInteger (n := 1) (by decide)

/-- Multiplying an integer with one gives the integer. -/
theorem ofInteger_mul_one (s : Sign) {n : Nat} (h : n < significandLimit) :
    ofInteger s n * 1 = ofInteger s n := by
  rw [one_eq_ofInteger]
  show Float.ofModel (Float.Model.pack (UnpackedFloat.mul Format.binary64 _ _)) = _
  rw [unpack_ofInteger s h, unpack_ofInteger .positive (by decide),
    mul_integer s .positive (by rwa [Nat.mul_one]), Nat.mul_one]
  cases s <;> rfl

theorem zero_add_ofInteger {s : Sign} {n : Nat} (h : n < significandLimit)
    (hsign : s = .positive ∨ 0 < n) : 0 + ofInteger s n = ofInteger s n := by
  rw [zero_eq_ofInteger]
  show Float.ofModel (Float.Model.pack (UnpackedFloat.add Format.binary64 _ _)) = _
  rw [unpack_ofInteger .positive (by decide), unpack_ofInteger s h, zero_add_integer hsign]
  rfl

theorem ofInteger_beq_one {n : Nat} (h : n < significandLimit) :
    (ofInteger .positive n == 1) = (n == 1) := by
  rw [one_eq_ofInteger]
  show UnpackedFloat.beq _ _ = _
  rw [unpack_ofInteger .positive h, unpack_ofInteger .positive (by decide), beq_integer]

/-- The order of an integer and zero. -/
theorem compare_ofInteger_zero (s : Sign) {n : Nat} (h : n < significandLimit) :
    (ofInteger s n).toModel.unpack.compare (ofInteger .positive 0).toModel.unpack =
      some (if n = 0 then .eq else match s with | .positive => .gt | .negative => .lt) := by
  rw [unpack_ofInteger s h, unpack_ofInteger .positive (by decide), compare_integer_zero]

theorem ofInteger_beq_zero (s : Sign) {n : Nat} (h : n < significandLimit) :
    (ofInteger s n == 0) = (n == 0) := by
  rw [zero_eq_ofInteger]
  show (UnpackedFloat.compare _ _ == some .eq) = _
  rw [compare_ofInteger_zero s h]
  by_cases hzero : n = 0
  · simp [hzero]
  · cases s <;> simp [hzero]

theorem ofInteger_lt_zero (s : Sign) {n : Nat} (h : n < significandLimit) :
    ofInteger s n < 0 ↔ s = .negative ∧ n ≠ 0 := by
  have hlt : ofInteger s n < ofInteger .positive 0 ↔
      ((ofInteger s n).toModel.unpack.compare (ofInteger .positive 0).toModel.unpack ==
        some .lt) = true := decide_eq_true_iff
  rw [zero_eq_ofInteger, hlt, compare_ofInteger_zero s h]
  by_cases hzero : n = 0
  · simp [hzero]
  · cases s <;> simp [hzero]

/-! ## Exact values -/

/-- The number of a bit pattern with its fields. -/
theorem toNat_packComponents (s : Sign) (exponent : BitVec 11) (significand : BitVec 52) :
    (packComponents Format.binary64 s exponent significand).toNat =
      s.toBitVec.toNat * 2 ^ 63 + exponent.toNat * 2 ^ 52 + significand.toNat := by
  have happend : (packComponents Format.binary64 s exponent significand).toNat =
      (s.toBitVec ++ exponent).toNat * 2 ^ 52 + significand.toNat := toNat_append _ _
  rw [happend, toNat_append]
  omega

/-- The fields that are read from a bit pattern. -/
theorem ofBits_packComponents (s : Sign) {exponent : BitVec 11} {significand : BitVec 52}
    (h : exponent.toNat < 2047) :
    Decimal.Binary.ofBits (packComponents Format.binary64 s exponent significand).toNat =
      if exponent.toNat = 0 then .finite (s == .negative) significand.toNat (-1074)
      else .finite (s == .negative) (Decimal.twoTo 52 + significand.toNat)
        ((exponent.toNat : ℤ) - 1075) := by
  have hsign : s.toBitVec.toNat < 2 := s.toBitVec.isLt
  have hexponent : exponent.toNat < 2048 := exponent.isLt
  have hsignificand : significand.toNat < 2 ^ 52 := significand.isLt
  have h63 : Decimal.twoTo 63 = 2 ^ 63 := rfl
  have h52 : Decimal.twoTo 52 = 2 ^ 52 := rfl
  have h11 : Decimal.twoTo 11 = 2 ^ 11 := rfl
  rw [toNat_packComponents]
  generalize hbits : s.toBitVec.toNat * 2 ^ 63 + exponent.toNat * 2 ^ 52 + significand.toNat = bits
  have hfirst : bits / Decimal.twoTo 63 % 2 = s.toBitVec.toNat := by
    rw [h63]
    omega
  have hmiddle : bits / Decimal.twoTo 52 % Decimal.twoTo 11 = exponent.toNat := by
    rw [h52, h11]
    omega
  have hlast : bits % Decimal.twoTo 52 = significand.toNat := by
    rw [h52]
    omega
  have hnegative : (s.toBitVec.toNat == 1) = (s == .negative) := by cases s <;> rfl
  have hfinite : exponent.toNat ≠ Decimal.twoTo 11 - 1 := by omega
  simp only [Decimal.Binary.ofBits, hfirst, hmiddle, hlast, hnegative, if_neg hfinite]

end SchoolMath.Double
