import SchoolMath.Proofs.Polynomial.Value

/-!
# `Polynomial.Antiderivative` — the derivative of the antiderivative

A polynomial stands for an element of `K[X]`, its value with the powers of `X` as weights
(`toPolynomial`). In characteristic zero the derivative of what `antiderivative` returns is the
polynomial that was given: the factor that a raised exponent brings down is the number its
coefficient was divided by. No exponent of the result is zero, so its value at zero is zero.
-/

open scoped Polynomial

namespace SchoolMath.Polynomial

open FormalSum

variable {K : Type} [Field K]

/-- The polynomial of `K[X]` with the same terms. -/
noncomputable def toPolynomial (p : Polynomial K) : K[X] := p.value (Polynomial.X ^ ·)

/-- The values of a polynomial are those of the polynomial of `K[X]`. -/
theorem eval_toPolynomial (x : K) (p : Polynomial K) : p.toPolynomial.eval x = p.evaluate x := by
  have hmap := map_value (fun n => (Polynomial.X : K[X]) ^ n) (Polynomial.leval x) p
  simpa [evaluate_eq_value, toPolynomial] using hmap

/-- The term of the antiderivative for a term. -/
def raise (t : Nat × K) : Nat × K := (t.1 + 1, t.2 / ((t.1 + 1 : Nat) : K))

/-- An antiderivative has the raised terms. -/
theorem antiderivative_eq_ok {p q : Polynomial K} (h : p.antiderivative = .ok q) :
    q = ofTerms (p.terms.map raise) := by
  obtain ⟨terms, hterms, heq⟩ := bind_eq_ok.1 h
  obtain rfl : ofTerms terms = q := Except.ok.inj heq
  rw [mapM_eq_ok _ hterms]
  intro t u htu
  obtain ⟨raised, hraised, heq⟩ := bind_eq_ok.1 htu
  obtain ⟨rfl, -⟩ := addExponents_eq_ok hraised
  exact (Except.ok.inj heq).symm

/-- With any weights the value of an antiderivative is that of the raised terms. -/
theorem value_antiderivative {M : Type} [AddCommGroup M] [Module K M] (weight : Nat → M)
    {p q : Polynomial K} (h : p.antiderivative = .ok q) :
    q.value weight = valueOf weight (p.terms.map raise) := by
  rw [antiderivative_eq_ok h, value_ofTerms]

/-- The derivative of an antiderivative is the polynomial. -/
theorem derivative_antiderivative [CharZero K] {p q : Polynomial K}
    (h : p.antiderivative = .ok q) : Polynomial.derivative q.toPolynomial = p.toPolynomial := by
  -- the factor that comes down cancels the divisor, which is not zero in characteristic zero
  have hterm : ∀ t : Nat × K,
      (raise t).2 • Polynomial.derivative ((Polynomial.X : K[X]) ^ (raise t).1) =
        t.2 • Polynomial.X ^ t.1 := by
    intro t
    have hne : ((t.1 + 1 : Nat) : K) ≠ 0 := Nat.cast_ne_zero.2 (Nat.succ_ne_zero t.1)
    rw [raise, Polynomial.derivative_X_pow, Nat.add_sub_cancel, ← Polynomial.smul_eq_C_mul,
      smul_smul, div_mul_cancel₀ _ hne]
  rw [toPolynomial, map_value, value_antiderivative _ h, valueOf, List.map_map]
  exact congrArg List.sum (List.map_congr_left fun t _ => hterm t)

/-- An antiderivative is zero at zero. -/
theorem evaluate_antiderivative_zero {p q : Polynomial K} (h : p.antiderivative = .ok q) :
    q.evaluate 0 = 0 := by
  rw [evaluate_eq_value, value_antiderivative _ h, valueOf, List.map_map]
  refine List.sum_eq_zero fun y hy => ?_
  obtain ⟨t, -, rfl⟩ := List.mem_map.1 hy
  simp [raise]

end SchoolMath.Polynomial
