import SchoolMath.Proofs.Polynomial.Value

/-!
# `Polynomial.Coefficient` — the coefficients of products

Read in `K[X]`, with the powers of `X` as weights, a polynomial has the coefficients that it stores,
and zero where it stores none. Multiplication is that of `K[X]`, so the coefficients of a product are
the sums over all ways to split an exponent in two. `IsProduct` says this together with what is known
of the exponents, in a form in which the factors may change places.
-/

open scoped Polynomial

namespace SchoolMath.Polynomial

open FormalSum

variable {K : Type} [CommRing K]

/-- In `K[X]` a polynomial has the coefficients that it stores. -/
theorem coeff_value_X_pow (p : Polynomial K) (n : Nat) :
    (p.value fun k => (Polynomial.X : K[X]) ^ k).coeff n = p.coefficient n := by
  have hmap := map_value (fun k => (Polynomial.X : K[X]) ^ k) (Polynomial.lcoeff K n) p
  rw [Polynomial.lcoeff_apply] at hmap
  rw [hmap, coefficient_eq_value]
  simp only [Polynomial.lcoeff_apply, Polynomial.coeff_X_pow, eq_comm]

/-- The coefficient of a product at an exponent: the sum over the ways to split the exponent. -/
theorem coefficient_multiply {p q r : Polynomial K} (h : p.multiply q = .ok r) (n : Nat) :
    r.coefficient n = ∑ ij ∈ Finset.HasAntidiagonal.antidiagonal n,
      p.coefficient ij.1 * q.coefficient ij.2 := by
  rw [← coeff_value_X_pow, value_multiply _ h, Polynomial.coeff_mul]
  simp only [coeff_value_X_pow]

/-- The exponents and the coefficients of `r` are those of the product of `p` and `q`. -/
structure IsProduct (p q r : Polynomial K) : Prop where
  mem_keys_iff : ∀ n, n ∈ r.keys ↔ ∃ i ∈ p.keys, ∃ j ∈ q.keys, i + j = n
  coefficient_eq : ∀ n, r.coefficient n = ∑ ij ∈ Finset.HasAntidiagonal.antidiagonal n,
    p.coefficient ij.1 * q.coefficient ij.2

theorem isProduct_of_multiply {p q r : Polynomial K} (h : p.multiply q = .ok r) : IsProduct p q r :=
  ⟨(multiply_eq_ok h).2, coefficient_multiply h⟩

/-- The factors of a product may change places. -/
theorem IsProduct.symm {p q r : Polynomial K} (h : IsProduct p q r) : IsProduct q p r where
  mem_keys_iff n := by
    rw [h.mem_keys_iff]
    constructor
    · rintro ⟨i, hi, j, hj, hsum⟩
      exact ⟨j, hj, i, hi, by omega⟩
    · rintro ⟨j, hj, i, hi, hsum⟩
      exact ⟨i, hi, j, hj, by omega⟩
  coefficient_eq n := by
    rw [h.coefficient_eq, ← Finset.Nat.sum_antidiagonal_swap]
    exact Finset.sum_congr rfl fun ij _ => mul_comm _ _

end SchoolMath.Polynomial
