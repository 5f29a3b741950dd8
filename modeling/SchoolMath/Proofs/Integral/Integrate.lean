import SchoolMath.Integral.Integrate
import SchoolMath.Proofs.Polynomial.Antiderivative
import SchoolMath.Proofs.Polynomial.Compile

/-!
# `Integral.Integrate` — integration inverts the derivative

The polynomial of the integrand denotes the function that the integrand denotes, and it is the
derivative of the antiderivative. Between two bounds the value is the difference of two values of
the antiderivative, so the values over adjacent intervals add up. The bounds take no part in the
antiderivative: if one integral succeeds, so does that of the same integrand between any two finite
constants.
-/

namespace SchoolMath.IntegralExpression

variable {K : Type}

/-- The integral of the same integrand between two bounds. -/
def between (integral : IntegralExpression K) (lower upper : Expression K) : IntegralExpression K :=
  { integral with lower := some lower, upper := some upper }

variable [Field K] [Pow K K]

/-- A bound that is a finite constant. -/
def FoldsTo [Finiteness K] (bound : Expression K) (a : K) : Prop :=
  bound.tree.fold? = some a ∧ isFinite a = true

variable [DecidableEq K] [Whole K] [Finiteness K] {integral : IntegralExpression K}
  {result : Integrated K} {bound lower upper : Expression K} {a b : K} {p q : Polynomial K}

omit [DecidableEq K] [Whole K] in
/-- The value of a bound. -/
theorem boundValue_eq_ok : boundValue bound = .ok a ↔ FoldsTo bound a := by
  unfold boundValue FoldsTo
  cases bound.tree.fold? with
  | none => simp
  | some c =>
    by_cases hfinite : isFinite c = true
    · simp only [hfinite, if_true, Except.ok.injEq, Option.some.injEq]
      constructor
      · rintro rfl
        exact ⟨rfl, hfinite⟩
      · exact And.left
    · simp only [hfinite, Option.some.injEq]
      constructor
      · exact nofun
      · rintro ⟨rfl, h⟩
        exact absurd h hfinite

/-- What is returned has the antiderivative of the polynomial of the integrand, and a value if there
are two bounds. -/
theorem of_integrate_eq_ok (h : integral.integrate = .ok result) :
    ∃ p, Polynomial.ofTree integral.unknown integral.integrand.tree = .ok p ∧
      p.antiderivative = .ok result.antiderivative ∧
      ((result.value = none ∧ (integral.lower = none ∨ integral.upper = none)) ∨
        ∃ lower upper a b, integral.lower = some lower ∧ integral.upper = some upper ∧
          FoldsTo lower a ∧ FoldsTo upper b ∧ result.value =
            some (result.antiderivative.evaluate b - result.antiderivative.evaluate a)) := by
  simp only [integrate, bind_eq_ok] at h
  obtain ⟨p, hp, q, hq, h⟩ := h
  refine ⟨p, hp, ?_⟩
  split at h
  · next lower upper hlower hupper =>
    simp only [bind_eq_ok] at h
    obtain ⟨a, ha, b, hb, heq⟩ := h
    obtain rfl := Except.ok.inj heq
    exact ⟨hq, .inr ⟨lower, upper, a, b, hlower, hupper, boundValue_eq_ok.1 ha,
      boundValue_eq_ok.1 hb, rfl⟩⟩
  · next hbounds =>
    -- the other cases of the match: a bound is missing
    obtain rfl := Except.ok.inj h
    refine ⟨hq, .inl ⟨rfl, ?_⟩⟩
    cases hlower : integral.lower with
    | none => exact .inl rfl
    | some lower =>
      cases hupper : integral.upper with
      | none => exact .inr rfl
      | some upper => exact absurd hupper (hbounds lower upper hlower)

/-- Between two finite constants an integral succeeds if its integrand has an antiderivative. -/
theorem integrate_between (hp : Polynomial.ofTree integral.unknown integral.integrand.tree = .ok p)
    (hq : p.antiderivative = .ok q) (ha : FoldsTo lower a) (hb : FoldsTo upper b) :
    ∃ result, (integral.between lower upper).integrate = .ok result ∧
      result.value = some (q.evaluate b - q.evaluate a) := by
  simp only [integrate, between, hp, hq, ok_bind, boundValue_eq_ok.2 ha, boundValue_eq_ok.2 hb]
  exact ⟨_, rfl, rfl⟩

/-- What is returned has a value if and only if there are two bounds. -/
theorem isSome_value_of_integrate (h : integral.integrate = .ok result) :
    result.value.isSome = true ↔ integral.lower.isSome = true ∧ integral.upper.isSome = true := by
  obtain ⟨p, -, -, ⟨hvalue, hnone⟩ | ⟨lower, upper, a, b, hlower, hupper, -, -, hvalue⟩⟩ :=
    of_integrate_eq_ok h
  · rcases hnone with hnone | hnone
    · simp [hvalue, hnone]
    · simp [hvalue, hnone]
  · simp [hvalue, hlower, hupper]

/-- In exact arithmetic, where an integral succeeds the derivative of the antiderivative has the
value of the integrand everywhere, and the antiderivative is zero at zero. There is a value if and
only if there are two bounds; it is the difference of the values of the antiderivative at them, so
the values over adjacent intervals add up to the value over both. -/
theorem integrate_inverts_derivative [CharZero K] (hpow : ExactPowers K)
    (h : integral.integrate = .ok result) :
    (∀ x, integral.integrand.tree.value? (only integral.unknown x) =
      some ((Polynomial.derivative result.antiderivative.toPolynomial).eval x)) ∧
    result.antiderivative.evaluate 0 = 0 ∧
    (result.value.isSome = true ↔ integral.lower.isSome = true ∧ integral.upper.isSome = true) ∧
    (∀ lower upper, integral.lower = some lower → integral.upper = some upper →
      ∃ a b, FoldsTo lower a ∧ FoldsTo upper b ∧ result.value =
        some (result.antiderivative.evaluate b - result.antiderivative.evaluate a)) ∧
    ∀ lower middle upper a b c, FoldsTo lower a → FoldsTo middle b → FoldsTo upper c →
      ∃ first second whole v w, (integral.between lower middle).integrate = .ok first ∧
        (integral.between middle upper).integrate = .ok second ∧
        (integral.between lower upper).integrate = .ok whole ∧
        first.value = some v ∧ second.value = some w ∧ whole.value = some (v + w) := by
  obtain ⟨p, hp, hq, hvalue⟩ := of_integrate_eq_ok h
  refine ⟨?_, Polynomial.evaluate_antiderivative_zero hq, isSome_value_of_integrate h, ?_, ?_⟩
  · -- the polynomial of the integrand stands between the derivative and the integrand
    intro x
    rw [Polynomial.derivative_antiderivative hq, Polynomial.eval_toPolynomial]
    exact Polynomial.value?_of_ofTree hpow hp x
  · intro lower upper hlower hupper
    rcases hvalue with ⟨-, hnone | hnone⟩ | ⟨lower', upper', a, b, hlower', hupper', ha, hb, hvalue⟩
    · exact absurd (hlower.symm.trans hnone) (Option.some_ne_none lower)
    · exact absurd (hupper.symm.trans hnone) (Option.some_ne_none upper)
    · obtain rfl := Option.some.inj (hlower.symm.trans hlower')
      obtain rfl := Option.some.inj (hupper.symm.trans hupper')
      exact ⟨a, b, ha, hb, hvalue⟩
  · intro lower middle upper a b c ha hb hc
    obtain ⟨first, hfirst, hv⟩ := integrate_between hp hq ha hb
    obtain ⟨second, hsecond, hw⟩ := integrate_between hp hq hb hc
    obtain ⟨whole, hwhole, hsum⟩ := integrate_between hp hq ha hc
    refine ⟨first, second, whole, _, _, hfirst, hsecond, hwhole, hv, hw, ?_⟩
    rw [hsum, sub_add_sub_cancel']

/-- An integrand whose linear term cancels. -/
theorem integrate_inverts_derivative_difference_of_squares :
    let t : Tree ℝ := .var "t"
    let integral : IntegralExpression ℝ := ⟨⟨"(t+1)*(t-1)", .binary .times
      (.binary .plus t (.const 1)) (.binary .minus t (.const 1))⟩, "t",
      some ⟨"-1", .neg (.const 1)⟩, some ⟨"6/2", .binary .over (.const 6) (.const 2)⟩⟩
    ∃ result, integral.integrate = .ok result ∧ result.value = some (16 / 3) ∧
      result.antiderivative.evaluate 0 = 0 ∧
      ∀ x, (Polynomial.derivative result.antiderivative.toPolynomial).eval x = (x + 1) * (x - 1) := by
  intro t integral
  have hfinite : ∀ c : ℝ, isFinite c = true := fun _ => rfl
  obtain ⟨result, hresult, hvalue⟩ :
      ∃ result, integral.integrate = .ok result ∧ result.value = some (16 / 3) := by
    norm_num [integral, t, integrate, boundValue, Tree.fold?, Tree.value?, Operator.apply,
      Polynomial.ofTree, Polynomial.constant, Polynomial.identity, Polynomial.negate,
      Polynomial.multiply, Polynomial.termPairs, Polynomial.antiderivative, Polynomial.evaluate,
      addExponents, exponentLimit, FormalSum.ofTerms, FormalSum.add, FormalSum.addTerm,
      FormalSum.insertTerm, FormalSum.mapCoefficients, FormalSum.empty, hfinite,
      bind, Except.bind, pure, Except.pure]
  obtain ⟨hderivative, hzero, -⟩ := integrate_inverts_derivative exactPowers_real hresult
  exact ⟨result, hresult, hvalue, hzero, fun x => (Option.some.inj (hderivative x)).symm⟩

end SchoolMath.IntegralExpression
