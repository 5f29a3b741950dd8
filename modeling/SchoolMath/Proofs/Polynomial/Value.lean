import SchoolMath.Proofs.Polynomial.Product

/-!
# `Polynomial.Value` — the values of polynomials

Over a commutative ring `evaluate` is the value of the formal sum with the powers of a number as
weights, and the operations on polynomials are those on values. Products and powers may fail, since
exponents are bounded; whatever they return has the value of the product and of the power.
-/

namespace SchoolMath.Polynomial

open FormalSum

variable {K : Type} [CommRing K] (x : K)

/-- Evaluation is the value with the powers of `x` as weights. -/
theorem evaluate_eq_value (p : Polynomial K) : p.evaluate x = p.value (x ^ ·) := by
  have hfold : ∀ (ts : List (Nat × K)) (total : K),
      ts.foldl (fun total t => total + t.2 * x ^ t.1) total = total + valueOf (x ^ ·) ts := by
    intro ts
    induction ts with
    | nil => simp
    | cons t ts ih =>
      intro total
      rw [List.foldl_cons, ih, valueOf_cons, smul_eq_mul, add_assoc]
  rw [evaluate, hfold, neg_zero, zero_add]
  rfl

theorem evaluate_constant (c : K) : (constant c).evaluate x = c := by
  rw [evaluate_eq_value, constant, value_ofTerms]
  simp

theorem evaluate_identity : (identity : Polynomial K).evaluate x = x := by
  rw [evaluate_eq_value, identity, value_ofTerms]
  simp

theorem evaluate_add (p q : Polynomial K) :
    evaluate (p.add q) x = p.evaluate x + q.evaluate x := by
  simp only [evaluate_eq_value, value_add]

theorem evaluate_negate (p : Polynomial K) : p.negate.evaluate x = -p.evaluate x := by
  simp only [evaluate_eq_value]
  exact value_mapCoefficients_neg _ p

/-! ## Products -/

section Product

variable {A : Type} [CommRing A] [Algebra K A] (y : A)

/-- The pairs of terms have the product of the values as the sum of their products. -/
theorem sum_termPairs (p q : Polynomial K) :
    ((termPairs p q).map fun r => (r.1.2 * r.2.2) • y ^ (r.1.1 + r.2.1)).sum =
      p.value (y ^ ·) * q.value (y ^ ·) := by
  simp only [value, termPairs]
  have hinner : ∀ (s : Nat × K) (ts : List (Nat × K)),
      ((ts.map fun t => (s, t)).map fun r => (r.1.2 * r.2.2) • y ^ (r.1.1 + r.2.1)).sum =
        s.2 • y ^ s.1 * valueOf (y ^ ·) ts := by
    intro s ts
    induction ts with
    | nil => simp
    | cons t ts ih =>
      simp only [List.map_cons, List.sum_cons, valueOf_cons, ih]
      rw [mul_add, smul_mul_smul_comm, pow_add]
  induction p.terms with
  | nil => simp
  | cons s ss ih =>
    rw [List.flatMap_cons, List.map_append, List.sum_append, hinner, ih, valueOf_cons, add_mul]

/-- Adding products adds their values. -/
theorem value_foldlM_addProduct {pairs : List ((Nat × K) × (Nat × K))} {acc r : Polynomial K}
    (h : pairs.foldlM addProduct acc = .ok r) :
    r.value (y ^ ·) = acc.value (y ^ ·) +
      (pairs.map fun r => (r.1.2 * r.2.2) • y ^ (r.1.1 + r.2.1)).sum := by
  induction pairs generalizing acc with
  | nil =>
    obtain rfl : acc = r := Except.ok.inj h
    simp
  | cons pair pairs ih =>
    rw [List.foldlM_cons, bind_eq_ok] at h
    obtain ⟨acc', hacc', h⟩ := h
    obtain ⟨k, hk, rfl⟩ := map_eq_ok.1 hacc'
    obtain ⟨rfl, -⟩ := addExponents_eq_ok hk
    rw [ih h, value_addTerm, List.map_cons, List.sum_cons, add_assoc]

/-- A product has the product of the values, also in an algebra over the coefficients. -/
theorem value_multiply {p q r : Polynomial K} (h : p.multiply q = .ok r) :
    r.value (y ^ ·) = p.value (y ^ ·) * q.value (y ^ ·) := by
  rw [value_foldlM_addProduct y (multiply_eq p q ▸ h), sum_termPairs, value_empty, zero_add]

end Product

/-- A product has the product of the values. -/
theorem evaluate_multiply {p q r : Polynomial K} (h : p.multiply q = .ok r) :
    r.evaluate x = p.evaluate x * q.evaluate x := by
  simp only [evaluate_eq_value, value_multiply x h]

/-! ## Powers -/

/-- Repeated squaring has the power of the value, times the accumulated factor. -/
theorem evaluate_multiplyPower {n : Nat} {acc base r : Polynomial K}
    (h : acc.multiplyPower base n = .ok r) :
    r.evaluate x = acc.evaluate x * base.evaluate x ^ n := by
  apply map_multiplyPower (f := (evaluate · x)) _ n h
  intro p q r hr
  exact evaluate_multiply x hr

/-- A power has the power of the value. -/
theorem evaluate_power {p r : Polynomial K} {n : Nat} (h : p.power n = .ok r) :
    r.evaluate x = p.evaluate x ^ n := by
  rw [evaluate_multiplyPower x h, evaluate_constant, one_mul]

end SchoolMath.Polynomial
