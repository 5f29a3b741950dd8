import SchoolMath.Polynomial.Basic
import SchoolMath.Proofs.FormalSum
import SchoolMath.Proofs.Outcome

/-!
# `Polynomial.Product` — the exponents of products

A product has the sums of the exponents of its factors, each pair of them, whatever the coefficients
are; a sum whose coefficients cancel is an exponent like any other (`multiply_eq_ok`). It fails at the
first pair whose sum is out of range, and only there (`multiply_eq_error`). Nothing here is asked of
the numbers, so all of it also holds where arithmetic rounds or is not defined.
-/

namespace SchoolMath.Polynomial

open FormalSum

variable {K : Type}

/-- The sum of two exponents, where there is one. -/
theorem addExponents_eq_ok {m n k : Nat} (h : addExponents (K := K) m n = .ok k) :
    k = m + n ∧ m + n ≤ exponentLimit := by
  unfold addExponents at h
  split at h
  · next hrange => exact ⟨(Except.ok.inj h).symm, hrange⟩
  · cases h

/-- A pair of terms is a term of each factor. -/
theorem mem_termPairs {p q : Polynomial K} {pair : (Nat × K) × (Nat × K)} :
    pair ∈ termPairs p q ↔ pair.1 ∈ p.terms ∧ pair.2 ∈ q.terms := by
  obtain ⟨s, t⟩ := pair
  simp [termPairs]

variable [Zero K] [Add K] [Mul K]

/-- Adds the product of a pair of terms. -/
def addProduct (r : Polynomial K) (pair : (Nat × K) × (Nat × K)) :
    Except (Failure K) (Polynomial K) :=
  (addExponents pair.1.1 pair.2.1).map fun k => r.addTerm k (pair.1.2 * pair.2.2)

/-- A product adds up the products of the pairs of terms. -/
theorem multiply_eq (p q : Polynomial K) :
    p.multiply q = (termPairs p q).foldlM addProduct FormalSum.empty := rfl

/-! ## Products -/

/-- Adding products adds the sums of the exponents, all of which are in range. -/
theorem foldlM_addProduct_eq_ok {pairs : List ((Nat × K) × (Nat × K))} {acc r : Polynomial K}
    (h : pairs.foldlM addProduct acc = .ok r) :
    (∀ pair ∈ pairs, pair.1.1 + pair.2.1 ≤ exponentLimit) ∧
      ∀ n, n ∈ r.keys ↔ n ∈ acc.keys ∨ ∃ pair ∈ pairs, pair.1.1 + pair.2.1 = n := by
  induction pairs generalizing acc with
  | nil =>
    obtain rfl : acc = r := Except.ok.inj h
    simp
  | cons pair pairs ih =>
    rw [List.foldlM_cons, bind_eq_ok] at h
    obtain ⟨acc', hacc', h⟩ := h
    obtain ⟨k, hk, rfl⟩ := map_eq_ok.1 hacc'
    obtain ⟨rfl, hrange⟩ := addExponents_eq_ok hk
    obtain ⟨hranges, hkeys⟩ := ih h
    refine ⟨List.forall_mem_cons.2 ⟨hrange, hranges⟩, ?_⟩
    intro n
    rw [hkeys, mem_keys_addTerm, List.exists_mem_cons_iff, or_comm (a := n = _), or_assoc,
      eq_comm (a := n)]

/-- A product that exists has the sums of the exponents of its factors, all of which are in range. -/
theorem multiply_eq_ok {p q r : Polynomial K} (h : p.multiply q = .ok r) :
    (∀ m ∈ p.keys, ∀ n ∈ q.keys, m + n ≤ exponentLimit) ∧
      ∀ k, k ∈ r.keys ↔ ∃ m ∈ p.keys, ∃ n ∈ q.keys, m + n = k := by
  obtain ⟨hranges, hkeys⟩ := foldlM_addProduct_eq_ok (multiply_eq p q ▸ h)
  constructor
  · intro m hm n hn
    obtain ⟨s, hs, rfl⟩ := List.mem_map.1 hm
    obtain ⟨t, ht, rfl⟩ := List.mem_map.1 hn
    exact hranges (s, t) (mem_termPairs.2 ⟨hs, ht⟩)
  · intro k
    have hempty : k ∉ (FormalSum.empty : Polynomial K).keys := List.not_mem_nil
    rw [hkeys, or_iff_right hempty]
    constructor
    · rintro ⟨⟨s, t⟩, hpair, hsum⟩
      obtain ⟨hs, ht⟩ := mem_termPairs.1 hpair
      exact ⟨_, List.mem_map_of_mem hs, _, List.mem_map_of_mem ht, hsum⟩
    · rintro ⟨m, hm, n, hn, hsum⟩
      obtain ⟨s, hs, rfl⟩ := List.mem_map.1 hm
      obtain ⟨t, ht, rfl⟩ := List.mem_map.1 hn
      exact ⟨(s, t), mem_termPairs.2 ⟨hs, ht⟩, hsum⟩

/-- Adding products fails only at a pair of terms whose exponents are too large together. -/
theorem foldlM_addProduct_eq_error {pairs : List ((Nat × K) × (Nat × K))} {acc : Polynomial K}
    {failure : Failure K} (h : pairs.foldlM addProduct acc = .error failure) :
    ∃ pair ∈ pairs, exponentLimit < pair.1.1 + pair.2.1 ∧
      failure = .exponentRange pair.1.1 pair.2.1 := by
  induction pairs generalizing acc with
  | nil => cases h
  | cons pair pairs ih =>
    rw [List.foldlM_cons, bind_eq_error] at h
    rcases h with h | ⟨acc', -, h⟩
    · refine ⟨pair, List.mem_cons_self, ?_⟩
      unfold addProduct addExponents at h
      split at h
      · cases h
      · next hrange => exact ⟨not_le.1 hrange, (Except.error.inj h).symm⟩
    · obtain ⟨pair', hmem, hpair⟩ := ih h
      exact ⟨pair', List.mem_cons_of_mem _ hmem, hpair⟩

/-- A product fails only because an exponent of each factor are too large together. -/
theorem multiply_eq_error {p q : Polynomial K} {failure : Failure K}
    (h : p.multiply q = .error failure) :
    ∃ m ∈ p.keys, ∃ n ∈ q.keys, exponentLimit < m + n ∧ failure = .exponentRange m n := by
  obtain ⟨pair, hmem, hpair⟩ := foldlM_addProduct_eq_error (multiply_eq p q ▸ h)
  obtain ⟨hs, ht⟩ := mem_termPairs.1 hmem
  exact ⟨_, List.mem_map_of_mem hs, _, List.mem_map_of_mem ht, hpair⟩

/-! ## Powers -/

/-- One round of repeated squaring: the last binary digit, then the others with the square. -/
theorem multiplyPower_eq (acc base : Polynomial K) {n : Nat} (hn : n ≠ 0) :
    acc.multiplyPower base n =
      ((if n % 2 = 1 then acc.multiply base else .ok acc) >>= fun acc' =>
        if n / 2 = 0 then .ok acc' else base.multiply base >>= (acc'.multiplyPower · (n / 2))) := by
  rw [multiplyPower, if_neg hn]
  split_ifs <;> rfl

/-- What takes products to products of a commutative monoid takes powers to powers, times the
accumulated factor. -/
theorem map_multiplyPower {M : Type} [CommMonoid M] {f : Polynomial K → M}
    (hf : ∀ p q r : Polynomial K, p.multiply q = .ok r → f r = f p * f q) (n : Nat) :
    ∀ {acc base r : Polynomial K}, acc.multiplyPower base n = .ok r → f r = f acc * f base ^ n := by
  -- factor and base change from round to round, while the exponent is halved
  induction n using Nat.strongRecOn with
  | ind n ih =>
    intro acc base r h
    by_cases hzero : n = 0
    · rw [multiplyPower, if_pos hzero] at h
      obtain rfl := Except.ok.inj h
      rw [hzero, pow_zero, mul_one]
    · rw [multiplyPower_eq acc base hzero, bind_eq_ok] at h
      obtain ⟨acc', hacc', h⟩ := h
      -- the last binary digit
      have hdigit : f acc' = f acc * f base ^ (n % 2) := by
        split at hacc'
        · next hodd => rw [hf _ _ _ hacc', hodd, pow_one]
        · next heven =>
          obtain rfl := Except.ok.inj hacc'
          rw [show n % 2 = 0 by omega, pow_zero, mul_one]
      split at h
      · next hlast =>
        obtain rfl := Except.ok.inj h
        rw [hdigit, show n % 2 = n by omega]
      · rw [bind_eq_ok] at h
        obtain ⟨square, hsquare, h⟩ := h
        rw [ih (n / 2) (by omega) h, hdigit, hf _ _ _ hsquare, mul_assoc, ← pow_two, ← pow_mul,
          ← pow_add, Nat.mod_add_div]

/-- A power fails only because exponents are too large. -/
theorem multiplyPower_eq_error (n : Nat) :
    ∀ {acc base : Polynomial K} {failure : Failure K}, acc.multiplyPower base n = .error failure →
      ∃ m k, failure = .exponentRange m k := by
  have hmultiply : ∀ {p q : Polynomial K} {failure : Failure K}, p.multiply q = .error failure →
      ∃ m k, failure = .exponentRange m k := by
    intro p q failure h
    obtain ⟨m, -, k, -, -, heq⟩ := multiply_eq_error h
    exact ⟨m, k, heq⟩
  induction n using Nat.strongRecOn with
  | ind n ih =>
    intro acc base failure h
    by_cases hzero : n = 0
    · rw [multiplyPower, if_pos hzero] at h
      cases h
    · rw [multiplyPower_eq acc base hzero, bind_eq_error] at h
      rcases h with h | ⟨acc', -, h⟩
      · split at h
        · exact hmultiply h
        · cases h
      · split at h
        · cases h
        · rcases bind_eq_error.1 h with h | ⟨square, -, h⟩
          · exact hmultiply h
          · exact ih (n / 2) (by omega) h

end SchoolMath.Polynomial
