import Mathlib
import SchoolMath.Equation.Solve
import SchoolMath.Proofs.Number.Real
import SchoolMath.Proofs.Polynomial.Dense

/-!
# `Equation.Roots` — the formulas for roots are right

Over the reals the formulas give the zeros of the polynomial whose dense coefficients they are
given. `AreRoots` says what this means for a list of roots: real ones are all the real zeros;
complex ones are a pair of zeros that is conjugate and off the real line, and there is no real zero.
-/

namespace SchoolMath

/-- The value of a real polynomial at a complex number. -/
noncomputable def Polynomial.complexValue (p : Polynomial ℝ) (z : ℂ) : ℂ :=
  FormalSum.value (z ^ ·) p

/-- All roots are real, and they are the real zeros of the polynomial. -/
def AllReal (roots : List (Root ℝ)) (p : Polynomial ℝ) : Prop :=
  (∀ root ∈ roots, ∃ r, root = .real r) ∧ ∀ r, .real r ∈ roots ↔ p.evaluate r = 0

/-- The roots are two conjugate zeros of the polynomial, and it has no real zero. -/
def ConjugatePair (roots : List (Root ℝ)) (p : Polynomial ℝ) : Prop :=
  ∃ re im, roots = [.complex re im, .complex re (-im)] ∧ im ≠ 0 ∧
    p.complexValue ⟨re, im⟩ = 0 ∧ p.complexValue ⟨re, -im⟩ = 0 ∧ ∀ r, p.evaluate r ≠ 0

/-- The roots are those of the polynomial. -/
def AreRoots (roots : List (Root ℝ)) (p : Polynomial ℝ) : Prop :=
  AllReal roots p ∨ ConjugatePair roots p

namespace Equation

variable {equation : Equation ℝ} {p : Polynomial ℝ} {a b c : ℝ} {roots : List (Root ℝ)}
  {steps : List (Step ℝ)}

/-! ## The linear case -/

/-- A linear equation with a solution has its root. -/
theorem areRoots_of_linearRoots (hp : ∀ x, p.evaluate x = b + a * x)
    (h : equation.linearRoots a b = .ok (roots, steps)) : AreRoots roots p := by
  unfold linearRoots at h
  split at h
  · cases h
  · next ha =>
    have ha : a ≠ 0 := by simpa using ha
    obtain ⟨rfl, -⟩ := Prod.mk.inj (Except.ok.inj h)
    refine .inl ⟨by simp, fun r => ?_⟩
    rw [hp, List.mem_singleton, Root.real.injEq]
    constructor
    · rintro rfl
      field_simp
      ring
    · intro hr
      field_simp
      linarith

/-- A linear equation is degenerate only if its value is constant. -/
theorem evaluate_of_linearRoots_eq_error {failure : Failure ℝ} (hp : ∀ x, p.evaluate x = b + a * x)
    (h : equation.linearRoots a b = .error failure) : ∀ x, p.evaluate x = b := by
  unfold linearRoots at h
  split at h
  · next ha =>
    have ha : a = 0 := by simpa using ha
    intro x
    rw [hp, ha, zero_mul, add_zero]
  · cases h

/-! ## The quadratic case -/

/-- The discriminant is Mathlib's. -/
theorem discrim_eq (a b c : ℝ) : b * b - ((4 : Nat) : ℝ) * a * c = discrim a b c := by
  rw [discrim, pow_two]
  norm_num

/-- With a discriminant that is not negative, the quadratic formula gives all zeros. -/
theorem allReal_of_discrim_nonneg (ha : a ≠ 0) (hp : ∀ x, p.evaluate x = c + b * x + a * x ^ 2)
    (hd : 0 ≤ discrim a b c) : AllReal (quadraticFormula a b (discrim a b c)) p := by
  have hsquare : discrim a b c = squareRoot (discrim a b c) * squareRoot (discrim a b c) :=
    (Real.mul_self_sqrt hd).symm
  unfold quadraticFormula
  rw [if_neg (not_lt.2 hd)]
  refine ⟨by simp, fun r => ?_⟩
  have hzero : p.evaluate r = 0 ↔ a * (r * r) + b * r + c = 0 := by
    rw [hp]
    constructor <;> intro h <;> linarith
  rw [hzero, quadratic_eq_zero_iff ha hsquare]
  simp

/-- With a negative discriminant, it gives a pair of conjugate zeros. -/
theorem conjugatePair_of_discrim_neg (ha : a ≠ 0) (hp : ∀ x, p.evaluate x = c + b * x + a * x ^ 2)
    (hcomplex : ∀ z, p.complexValue z = c + b * z + a * z ^ 2) (hd : discrim a b c < 0) :
    ConjugatePair (quadraticFormula a b (discrim a b c)) p := by
  unfold quadraticFormula
  rw [if_pos hd]
  have hroot : squareRoot (-discrim a b c) * squareRoot (-discrim a b c) = -discrim a b c :=
    Real.mul_self_sqrt (neg_nonneg.2 hd.le)
  have hpos : 0 < squareRoot (-discrim a b c) := Real.sqrt_pos.2 (neg_pos.2 hd)
  generalize squareRoot (-discrim a b c) = s at hroot hpos ⊢
  -- over the complex numbers the discriminant is the square of `s·i`
  have hsquare : discrim (a : ℂ) b c = (s * Complex.I) * (s * Complex.I) := by
    have h : discrim (a : ℂ) b c = (discrim a b c : ℝ) := by simp [discrim]
    rw [h, ← neg_eq_iff_eq_neg.2 hroot]
    push_cast
    linear_combination -(s : ℂ) * s * Complex.I_mul_I
  have ha' : (a : ℂ) ≠ 0 := Complex.ofReal_ne_zero.2 ha
  have hzero : ∀ z, p.complexValue z = 0 ↔ z = (-b + s * Complex.I) / (2 * a) ∨
      z = (-b - s * Complex.I) / (2 * a) := by
    intro z
    rw [← quadratic_eq_zero_iff ha' hsquare, hcomplex]
    constructor <;> intro h <;> linear_combination h
  refine ⟨_, _, rfl, by positivity, ?_, ?_, ?_⟩
  · refine (hzero _).2 (.inl ?_)
    rw [Complex.mk_eq_add_mul_I]
    push_cast
    ring
  · refine (hzero _).2 (.inr ?_)
    rw [Complex.mk_eq_add_mul_I]
    push_cast
    ring
  · -- a negative number is no square, so there is no real zero
    intro r hr
    have hne := quadratic_ne_zero_of_discrim_ne_sq (a := a) (b := b) (c := c)
      (fun s hs => absurd hd (not_lt.2 (hs ▸ sq_nonneg s))) r
    rw [hp] at hr
    exact hne (by linarith)

/-- What a quadratic equation gives are its roots, also if it has none of degree two. -/
theorem areRoots_of_quadraticRoots (hp : ∀ x, p.evaluate x = c + b * x + a * x ^ 2)
    (hcomplex : ∀ z, p.complexValue z = c + b * z + a * z ^ 2)
    (h : equation.quadraticRoots a b c = .ok (roots, steps)) : AreRoots roots p := by
  unfold quadraticRoots at h
  split at h
  · -- the square has vanished, so the polynomial is linear after all
    next ha =>
    obtain rfl : a = 0 := by simpa using ha
    obtain ⟨⟨roots', steps'⟩, hlinear, heq⟩ := bind_eq_ok.1 h
    obtain ⟨rfl, -⟩ := Prod.mk.inj (Except.ok.inj heq)
    exact areRoots_of_linearRoots (fun x => by rw [hp, zero_mul, add_zero]) hlinear
  · next ha =>
    have ha : a ≠ 0 := by simpa using ha
    simp only [discrim_eq] at h
    obtain ⟨rfl, -⟩ := Prod.mk.inj (Except.ok.inj h)
    rcases le_or_gt 0 (discrim a b c) with hd | hd
    · exact .inl (allReal_of_discrim_nonneg ha hp hd)
    · exact .inr (conjugatePair_of_discrim_neg ha hp hcomplex hd)

/-- A quadratic equation is degenerate only if its value is constant. -/
theorem evaluate_of_quadraticRoots_eq_error {failure : Failure ℝ}
    (hp : ∀ x, p.evaluate x = c + b * x + a * x ^ 2)
    (h : equation.quadraticRoots a b c = .error failure) : ∀ x, p.evaluate x = c := by
  unfold quadraticRoots at h
  split at h
  · next ha =>
    obtain rfl : a = 0 := by simpa using ha
    rcases bind_eq_error.1 h with hlinear | ⟨r, -, heq⟩
    · exact evaluate_of_linearRoots_eq_error (fun x => by rw [hp, zero_mul, add_zero]) hlinear
    · cases heq
  · cases h

/-! ## The roots of a polynomial -/

/-- The value of a polynomial with two dense coefficients. -/
theorem evaluate_of_dense_pair (h : p.dense = [b, a]) (x : ℝ) : p.evaluate x = b + a * x := by
  rw [Polynomial.evaluate_eq_value, Polynomial.value_of_dense_pair _ h]
  simp

/-- The value of a polynomial with three dense coefficients. -/
theorem evaluate_of_dense_triple (h : p.dense = [c, b, a]) (x : ℝ) :
    p.evaluate x = c + b * x + a * x ^ 2 := by
  rw [Polynomial.evaluate_eq_value, Polynomial.value_of_dense_triple _ h]
  simp

/-- Its value at a complex number. -/
theorem complexValue_of_dense_triple (h : p.dense = [c, b, a]) (z : ℂ) :
    p.complexValue z = c + b * z + a * z ^ 2 := by
  rw [Polynomial.complexValue, Polynomial.value_of_dense_triple _ h]
  simp

/-- What is returned for the dense coefficients of a polynomial are its roots. -/
theorem areRoots_of_rootsOf (h : equation.rootsOf p.dense = .ok (roots, steps)) :
    AreRoots roots p := by
  unfold rootsOf at h
  split at h
  · next hdense => exact areRoots_of_linearRoots (evaluate_of_dense_pair hdense) h
  · next hdense =>
    exact areRoots_of_quadraticRoots (evaluate_of_dense_triple hdense)
      (complexValue_of_dense_triple hdense) h
  · cases h

/-- A polynomial is degenerate only if its value is constant. -/
theorem evaluate_of_rootsOf_eq_degenerate {text : String}
    (h : equation.rootsOf p.dense = .error (.degenerate text)) : ∃ c, ∀ x, p.evaluate x = c := by
  unfold rootsOf at h
  split at h
  · next hdense => exact ⟨_, evaluate_of_linearRoots_eq_error (evaluate_of_dense_pair hdense) h⟩
  · next hdense =>
    exact ⟨_, evaluate_of_quadraticRoots_eq_error (evaluate_of_dense_triple hdense) h⟩
  · cases h

end Equation

end SchoolMath
