import SchoolMath.Proofs.Polynomial.Coefficient

/-!
# `Polynomial.Power` — repeated squaring is repeated multiplication

Repeated squaring multiplies other polynomials than repeated multiplication does, and fewer of them.
Over a commutative ring both give the same polynomial, with the same exponents stored, and both fail
for the same bases and exponents (`power_eq_ok_iff`).

What a polynomial stores are exponents and coefficients. Taken as a set of numbers, with the sums of
sets, and in `K[X]`, they lie in a commutative monoid, where a product of polynomials is a product
(`stored_multiply`) and nothing is forgotten (`stored_injective`). So the laws of monoids say what a
power stores, in whatever order its factors are multiplied. They also say when there is one: a
product of which a factor is out of range is out of range itself, so what is multiplied on the way
to the result never fails on its own account. For repeated squaring this needs that no square is
taken beyond the last binary digit, and that every square is a factor of the result.
-/

open scoped Polynomial Pointwise

namespace SchoolMath.Polynomial

open FormalSum

variable {K : Type}

/-- `acc` times the `n`-th power of `base`, one factor after the other. -/
def multiplyRepeatedly [Zero K] [Add K] [Mul K] (acc base : Polynomial K) :
    Nat → Except (Failure K) (Polynomial K)
  | 0 => .ok acc
  | n + 1 => acc.multiply base >>= (multiplyRepeatedly · base n)

variable [CommRing K]

/-! ## What a polynomial stores -/

/-- Sets of exponents, multiplied by adding them, with elements of `K[X]`. -/
abbrev Stored (K : Type) [CommRing K] := Multiplicative (Set Nat) × K[X]

/-- The exponents of a polynomial, also those whose coefficient cancelled, and its coefficients. -/
noncomputable def stored (p : Polynomial K) : Stored K :=
  (.ofAdd {n | n ∈ p.keys}, p.value fun k => Polynomial.X ^ k)

namespace Stored

variable {s t : Stored K} {m n : Nat}

/-- All exponents are in range. -/
def InRange (s : Stored K) : Prop := ∀ k ∈ s.1.toAdd, k ≤ exponentLimit

/-- There is an exponent. -/
def HasTerms (s : Stored K) : Prop := s.1.toAdd.Nonempty

theorem hasTerms_one : (1 : Stored K).HasTerms := ⟨0, rfl⟩

theorem hasTerms_mul : (s * t).HasTerms ↔ s.HasTerms ∧ t.HasTerms := Set.add_nonempty

theorem HasTerms.pow (h : s.HasTerms) (n : Nat) : (s ^ n).HasTerms := by
  induction n with
  | zero =>
    rw [pow_zero]
    exact hasTerms_one
  | succ n ih =>
    rw [pow_succ]
    exact hasTerms_mul.2 ⟨ih, h⟩

/-- Without exponents there is none out of range. -/
theorem inRange_of_not_hasTerms (h : ¬ s.HasTerms) : s.InRange := by
  intro k hk
  exact absurd ⟨k, hk⟩ h

/-- Factors with terms only make exponents larger. -/
theorem InRange.of_mul (h : (s * t).InRange) (ht : t.HasTerms) : s.InRange := by
  intro k hk
  obtain ⟨l, hl⟩ := ht
  exact le_trans (Nat.le_add_right k l) (h (k + l) (Set.add_mem_add hk hl))

/-- Where a power is in range, so are those with fewer factors. Without any factor there may be
exponents that a factor without terms takes away. -/
theorem InRange.of_pow (h : (s * t ^ n).InRange) (hm : m ≠ 0) (hmn : m ≤ n) :
    (s * t ^ m).InRange := by
  by_cases ht : t.HasTerms
  · rw [← Nat.add_sub_cancel' hmn, pow_add, ← mul_assoc] at h
    exact h.of_mul (ht.pow (n - m))
  · apply inRange_of_not_hasTerms
    intro hpower
    obtain ⟨k, rfl⟩ := Nat.exists_eq_succ_of_ne_zero hm
    rw [pow_succ, hasTerms_mul, hasTerms_mul] at hpower
    exact ht hpower.2.2

/-- The first factor of a power is in range if the power is. -/
theorem InRange.of_pow_succ (h : (s * t ^ (n + 1)).InRange) : (s * t).InRange := by
  have hfirst := h.of_pow one_ne_zero (Nat.le_add_left 1 n)
  rwa [pow_one] at hfirst

/-- Where a power of at least two factors is in range, so is their product, which is not to lack
terms only because the other factor does. -/
theorem InRange.square (h : (s * t ^ n).InRange) (hterms : t.HasTerms → s.HasTerms) (hn : 2 ≤ n) :
    (t * t).InRange := by
  by_cases ht : t.HasTerms
  · have hsquare := h.of_pow two_ne_zero hn
    rw [mul_comm, pow_two] at hsquare
    exact hsquare.of_mul (hterms ht)
  · apply inRange_of_not_hasTerms
    intro hsquare
    exact ht (hasTerms_mul.1 hsquare).1

end Stored

/-- A polynomial is known from what it stores. -/
theorem stored_injective : Function.Injective (stored (K := K)) := by
  intro p q h
  obtain ⟨hkeys, hvalue⟩ := Prod.mk.inj h
  have hmem : {n | n ∈ p.keys} = {n | n ∈ q.keys} := Multiplicative.ofAdd.injective hkeys
  apply ext_coefficient
  · intro k
    exact Set.ext_iff.1 hmem k
  · intro k
    rw [← coeff_value_X_pow, hvalue, coeff_value_X_pow]

/-- The constant one stores the exponent zero with the coefficient one. -/
theorem stored_one : stored (constant (1 : K)) = 1 := by
  apply Prod.ext
  · apply congrArg Multiplicative.ofAdd
    ext k
    show k ∈ (constant (1 : K)).keys ↔ k = 0
    rw [constant, mem_keys_ofTerms, List.map_singleton, List.mem_singleton]
  · show (constant (1 : K)).value (fun k => (Polynomial.X : K[X]) ^ k) = 1
    rw [constant, value_ofTerms, valueOf_cons, valueOf_nil, pow_zero, one_smul, add_zero]

section Powers

open Stored

variable {acc base p q r : Polynomial K} {n : Nat}

/-! ## Products -/

/-- What a product stores is the product of what its factors store. -/
theorem stored_multiply (h : p.multiply q = .ok r) : stored r = stored p * stored q := by
  refine Prod.ext ?_ (value_multiply _ h)
  apply congrArg Multiplicative.ofAdd
  ext k
  exact (multiply_eq_ok h).2 k

/-- There is a product exactly if it is in range. -/
theorem exists_multiply_iff : (∃ r, p.multiply q = .ok r) ↔ (stored p * stored q).InRange := by
  constructor
  · rintro ⟨r, h⟩ - ⟨m, hm, n, hn, rfl⟩
    exact (multiply_eq_ok h).1 m hm n hn
  · intro hrange
    cases h : p.multiply q with
    | ok r => exact ⟨r, rfl⟩
    | error failure =>
      obtain ⟨m, hm, n, hn, hlarge, -⟩ := multiply_eq_error h
      exact absurd (hrange (m + n) (Set.add_mem_add hm hn)) (not_le.2 hlarge)

/-! ## One factor after the other -/

/-- What repeated multiplication gives stores the power. -/
theorem stored_multiplyRepeatedly (h : multiplyRepeatedly acc base n = .ok r) :
    stored r = stored acc * stored base ^ n := by
  induction n generalizing acc with
  | zero =>
    obtain rfl : acc = r := Except.ok.inj h
    rw [pow_zero, mul_one]
  | succ n ih =>
    rw [multiplyRepeatedly, bind_eq_ok] at h
    obtain ⟨acc', hacc', h⟩ := h
    rw [ih h, stored_multiply hacc', mul_assoc, pow_succ']

/-- Repeated multiplication succeeds exactly if the power is in range. -/
theorem exists_multiplyRepeatedly_iff :
    (∃ r, multiplyRepeatedly acc base n = .ok r) ↔
      (n ≠ 0 → (stored acc * stored base ^ n).InRange) := by
  induction n generalizing acc with
  | zero => exact ⟨fun _ hn => absurd rfl hn, fun _ => ⟨acc, rfl⟩⟩
  | succ n ih =>
    constructor
    · rintro ⟨r, h⟩ -
      rw [multiplyRepeatedly, bind_eq_ok] at h
      obtain ⟨acc', hacc', h⟩ := h
      have hrest := ih.1 ⟨r, h⟩
      rw [stored_multiply hacc', mul_assoc, ← pow_succ'] at hrest
      by_cases hn : n = 0
      · rw [hn, pow_one]
        exact exists_multiply_iff.1 ⟨acc', hacc'⟩
      · exact hrest hn
    · intro hrange
      have hrange := hrange n.succ_ne_zero
      obtain ⟨acc', hacc'⟩ := exists_multiply_iff.2 hrange.of_pow_succ
      have hrest : (stored acc' * stored base ^ n).InRange := by
        rwa [stored_multiply hacc', mul_assoc, ← pow_succ']
      obtain ⟨r, hr⟩ := ih.2 fun _ => hrest
      refine ⟨r, ?_⟩
      rw [multiplyRepeatedly, hacc']
      exact hr

/-! ## Repeated squaring -/

/-- The last binary digit says whether there is one more factor. -/
theorem digit_eq_multiplyRepeatedly (acc base : Polynomial K) (n : Nat) :
    (if n % 2 = 1 then acc.multiply base else .ok acc) = multiplyRepeatedly acc base (n % 2) := by
  rcases Nat.mod_two_eq_zero_or_one n with h | h
  · rw [h]
    rfl
  · rw [h, if_pos rfl]
    exact (bind_pure _).symm

/-- Repeated squaring succeeds exactly if the power is in range, if the accumulated factor has terms
or the base has none. -/
theorem exists_multiplyPower_iff (n : Nat) : ∀ {acc base : Polynomial K},
    ((stored base).HasTerms → (stored acc).HasTerms) →
      ((∃ r, acc.multiplyPower base n = .ok r) ↔
        (n ≠ 0 → (stored acc * stored base ^ n).InRange)) := by
  induction n using Nat.strongRecOn with
  | ind n ih =>
    intro acc base hterms
    by_cases hzero : n = 0
    · rw [multiplyPower, if_pos hzero]
      exact ⟨fun _ hn => absurd hzero hn, fun _ => ⟨acc, rfl⟩⟩
    rw [multiplyPower_eq acc base hzero, digit_eq_multiplyRepeatedly]
    -- the power that is left for the next round, times its factor, is the power
    have hround : ∀ {acc' square : Polynomial K}, multiplyRepeatedly acc base (n % 2) = .ok acc' →
        base.multiply base = .ok square →
        stored acc' * stored square ^ (n / 2) = stored acc * stored base ^ n ∧
          ((stored square).HasTerms → (stored acc').HasTerms) := by
      intro acc' square hacc' hsquare
      rw [stored_multiplyRepeatedly hacc', stored_multiply hsquare]
      constructor
      · rw [mul_assoc, ← pow_two, ← pow_mul, ← pow_add, Nat.mod_add_div]
      · intro hmul
        have hbase := (hasTerms_mul.1 hmul).1
        exact hasTerms_mul.2 ⟨hterms hbase, hbase.pow (n % 2)⟩
    constructor
    · rintro ⟨r, h⟩ -
      obtain ⟨acc', hacc', h⟩ := bind_eq_ok.1 h
      by_cases hlast : n / 2 = 0
      · obtain rfl : n = 1 := by omega
        exact exists_multiplyRepeatedly_iff.1 ⟨acc', hacc'⟩ one_ne_zero
      · rw [if_neg hlast, bind_eq_ok] at h
        obtain ⟨square, hsquare, h⟩ := h
        obtain ⟨hstored, hmore⟩ := hround hacc' hsquare
        have hrest := (ih (n / 2) (by omega) hmore).1 ⟨r, h⟩ hlast
        rwa [hstored] at hrest
    · intro hrange
      have hrange := hrange hzero
      have hdigit : n % 2 ≠ 0 → (stored acc * stored base ^ (n % 2)).InRange :=
        fun hodd => hrange.of_pow hodd (Nat.mod_le n 2)
      obtain ⟨acc', hacc'⟩ := exists_multiplyRepeatedly_iff.2 hdigit
      rw [hacc', ok_bind]
      by_cases hlast : n / 2 = 0
      · rw [if_pos hlast]
        exact ⟨acc', rfl⟩
      · rw [if_neg hlast]
        obtain ⟨square, hsquare⟩ := exists_multiply_iff.2 (hrange.square hterms (by omega))
        obtain ⟨hstored, hmore⟩ := hround hacc' hsquare
        rw [hsquare, ok_bind]
        apply (ih (n / 2) (by omega) hmore).2
        intro _
        rwa [hstored]

/-- There is an `n`-th power exactly if `n` factors are in range together. -/
theorem exists_power_iff :
    (∃ r, base.power n = .ok r) ↔ (n ≠ 0 → (stored base ^ n).InRange) := by
  have hterms : (stored base).HasTerms → (stored (constant (1 : K))).HasTerms := by
    intro _
    rw [stored_one]
    exact hasTerms_one
  rw [power, exists_multiplyPower_iff n hterms, stored_one, one_mul]

/-- What a power stores is the power of what its base stores. -/
theorem stored_power (h : base.power n = .ok r) : stored r = stored base ^ n := by
  have hmap := map_multiplyPower (f := stored) (fun _ _ _ => stored_multiply) n h
  rwa [stored_one, one_mul] at hmap

end Powers

/-- Repeated squaring gives the polynomial that `n` multiplications by the base give, starting from
the constant one, with the same terms, and it fails exactly if they fail. -/
theorem power_eq_ok_iff (base : Polynomial K) (n : Nat) :
    (∀ r, base.power n = .ok r ↔ multiplyRepeatedly (constant 1) base n = .ok r) ∧
      ((∃ failure, base.power n = .error failure) ↔
        ∃ failure, multiplyRepeatedly (constant 1) base n = .error failure) := by
  have hexists : (∃ r, base.power n = .ok r) ↔
      ∃ r, multiplyRepeatedly (constant 1) base n = .ok r := by
    rw [exists_power_iff, exists_multiplyRepeatedly_iff, stored_one, one_mul]
  have hsame : ∀ {r r'}, base.power n = .ok r → multiplyRepeatedly (constant 1) base n = .ok r' →
      r = r' := by
    intro r r' hr hr'
    apply stored_injective
    rw [stored_power hr, stored_multiplyRepeatedly hr', stored_one, one_mul]
  constructor
  · intro r
    constructor
    · intro hr
      obtain ⟨r', hr'⟩ := hexists.1 ⟨r, hr⟩
      rwa [hsame hr hr']
    · intro hr
      obtain ⟨r', hr'⟩ := hexists.2 ⟨r, hr⟩
      rwa [← hsame hr' hr]
  · rw [exists_eq_error_iff, exists_eq_error_iff, hexists]

end SchoolMath.Polynomial
