import SchoolMath.Equation.LinearForm
import SchoolMath.Proofs.FormalSum
import SchoolMath.Proofs.Outcome
import SchoolMath.Proofs.Tree.Value

/-!
# `Equation.LinearForm` — the linear form of a tree is the function of the tree

A tree that has a linear form has its value wherever its names have values, and the form has no other
names. The proof is an induction on the tree; a product has a linear form only if one factor has no
name in it, and the value of that factor is its constant.
-/

namespace SchoolMath

variable {K : Type}

namespace LinearForm

variable [CommRing K] (given : String → K)

/-- The value of a linear form when `given` gives the values of names. -/
def evaluate (form : LinearForm K) : K := form.coefficients.value given + form.constant

theorem evaluate_ofConstant (c : K) : (ofConstant c).evaluate given = c := by
  rw [evaluate, ofConstant, FormalSum.value_empty, zero_add]

theorem evaluate_ofName (name : String) : (ofName name : LinearForm K).evaluate given = given name := by
  simp [evaluate, ofName, FormalSum.value]

theorem evaluate_scale (form : LinearForm K) (factor : K) :
    (form.scale factor).evaluate given = form.evaluate given * factor := by
  have hmul : form.coefficients.mapCoefficients (· * factor) =
      form.coefficients.mapCoefficients (factor * ·) := by
    simp only [mul_comm]
  rw [evaluate, scale, hmul, FormalSum.value_mapCoefficients_mul, evaluate, smul_eq_mul]
  ring

theorem evaluate_addScaled (form other : LinearForm K) (sign : K) :
    (form.addScaled sign other).evaluate given =
      form.evaluate given + sign * other.evaluate given := by
  rw [evaluate, addScaled, FormalSum.value_add, FormalSum.value_mapCoefficients_mul, evaluate,
    evaluate, smul_eq_mul]
  ring

/-- The value of a form without names is its constant. -/
theorem evaluate_of_isConstant {form : LinearForm K} (h : form.isConstant = true) :
    form.evaluate given = form.constant := by
  have hterms : form.coefficients.terms = [] := List.isEmpty_iff.1 h
  rw [evaluate, FormalSum.value, hterms, FormalSum.valueOf_nil, zero_add]

omit [CommRing K] in
/-- A product has a linear form if one factor is constant: the other factor's, scaled by it. -/
theorem ofTree_times [Zero K] [One K] [Add K] [Mul K] [Neg K] {left right : Tree K}
    {form : LinearForm K} (h : ofTree (.binary .times left right) = .ok form) :
    ∃ first second, ofTree left = .ok first ∧ ofTree right = .ok second ∧
      (first.isConstant = true ∧ form = second.scale first.constant ∨
        second.isConstant = true ∧ form = first.scale second.constant) := by
  simp only [ofTree, bind_eq_ok] at h
  obtain ⟨first, hfirst, second, hsecond, h⟩ := h
  refine ⟨first, second, hfirst, hsecond, ?_⟩
  split at h
  · next hconstant => exact .inl ⟨hconstant, (Except.ok.inj h).symm⟩
  · split at h
    · next hconstant => exact .inr ⟨hconstant, (Except.ok.inj h).symm⟩
    · cases h

/-- The linear form of a tree has the value of the tree. -/
theorem value?_of_ofTree [Div K] [Pow K K] {t : Tree K} {form : LinearForm K}
    (h : ofTree t = .ok form) : t.value? (fun name => some (given name)) = some (form.evaluate given) := by
  induction t generalizing form with
  | const value =>
    obtain rfl : ofConstant value = form := Except.ok.inj h
    rw [Tree.value?, evaluate_ofConstant]
  | var name =>
    obtain rfl : ofName name = form := Except.ok.inj h
    rw [Tree.value?, evaluate_ofName]
  | neg operand ih =>
    rw [ofTree, bind_eq_ok] at h
    obtain ⟨inner, hinner, heq⟩ := h
    obtain rfl : inner.scale (-1) = form := Except.ok.inj heq
    rw [Tree.value?, ih hinner, evaluate_scale, mul_neg_one]
    rfl
  | binary op left right ihl ihr =>
    cases op with
    | plus =>
      simp only [ofTree, bind_eq_ok] at h
      obtain ⟨first, hfirst, second, hsecond, heq⟩ := h
      obtain rfl : first.addScaled 1 second = form := Except.ok.inj heq
      rw [Tree.value?, ihl hfirst, ihr hsecond, evaluate_addScaled, one_mul]
      rfl
    | minus =>
      simp only [ofTree, bind_eq_ok] at h
      obtain ⟨first, hfirst, second, hsecond, heq⟩ := h
      obtain rfl : first.addScaled (-1) second = form := Except.ok.inj heq
      rw [Tree.value?, ihl hfirst, ihr hsecond, evaluate_addScaled, neg_one_mul, ← sub_eq_add_neg]
      rfl
    | times =>
      obtain ⟨first, second, hfirst, hsecond, ⟨hconstant, rfl⟩ | ⟨hconstant, rfl⟩⟩ := ofTree_times h
      · rw [Tree.value?, ihl hfirst, ihr hsecond, evaluate_scale,
          evaluate_of_isConstant given hconstant, mul_comm]
        rfl
      · rw [Tree.value?, ihl hfirst, ihr hsecond, evaluate_scale,
          evaluate_of_isConstant given hconstant]
        rfl
    | «over» | power => cases h

omit [CommRing K] in
/-- The linear form of a tree has no other names than the tree. -/
theorem keys_of_ofTree [Zero K] [One K] [Add K] [Mul K] [Neg K] {t : Tree K} {form : LinearForm K}
    (h : ofTree t = .ok form) : ∀ name ∈ form.coefficients.keys, name ∈ t.names := by
  induction t generalizing form with
  | const value =>
    obtain rfl : ofConstant value = form := Except.ok.inj h
    exact fun _ hname => nomatch hname
  | var name =>
    obtain rfl : ofName name = form := Except.ok.inj h
    exact fun _ hname => hname
  | neg operand ih =>
    rw [ofTree, bind_eq_ok] at h
    obtain ⟨inner, hinner, heq⟩ := h
    obtain rfl : inner.scale (-1) = form := Except.ok.inj heq
    simpa [scale, Tree.names] using ih hinner
  | binary op left right ihl ihr =>
    have hadd : ∀ {first second : LinearForm K} {sign : K}, ofTree left = .ok first →
        ofTree right = .ok second → ∀ name ∈ (first.addScaled sign second).coefficients.keys,
          name ∈ (Tree.binary op left right).names := by
      intro first second sign hfirst hsecond name hname
      rcases FormalSum.mem_keys_add.1 hname with hname | hname
      · exact List.mem_append_left _ (ihl hfirst name hname)
      · rw [FormalSum.keys_mapCoefficients] at hname
        exact List.mem_append_right _ (ihr hsecond name hname)
    cases op with
    | plus | minus =>
      simp only [ofTree, bind_eq_ok] at h
      obtain ⟨first, hfirst, second, hsecond, heq⟩ := h
      obtain rfl := Except.ok.inj heq
      exact hadd hfirst hsecond
    | times =>
      obtain ⟨first, second, hfirst, hsecond, ⟨-, rfl⟩ | ⟨-, rfl⟩⟩ := ofTree_times h
      · intro name hname
        rw [scale, FormalSum.keys_mapCoefficients] at hname
        exact List.mem_append_right _ (ihr hsecond name hname)
      · intro name hname
        rw [scale, FormalSum.keys_mapCoefficients] at hname
        exact List.mem_append_left _ (ihl hfirst name hname)
    | «over» | power => cases h

omit [CommRing K] in
/-- A tree without a linear form is refused as not linear. -/
theorem ofTree_eq_error [Zero K] [One K] [Add K] [Mul K] [Neg K] {t : Tree K} {failure : Failure K}
    (h : ofTree t = .error failure) : ∃ part, failure = .notLinear part := by
  induction t with
  | const value | var name => cases h
  | neg operand ih =>
    rw [ofTree, bind_eq_error] at h
    rcases h with h | ⟨form, -, h⟩
    · exact ih h
    · cases h
  | binary op left right ihl ihr =>
    cases op with
    | plus | minus =>
      simp only [ofTree, bind_eq_error] at h
      rcases h with h | ⟨first, -, h | ⟨second, -, h⟩⟩
      · exact ihl h
      · exact ihr h
      · cases h
    | times =>
      simp only [ofTree, bind_eq_error] at h
      rcases h with h | ⟨first, -, h | ⟨second, -, h⟩⟩
      · exact ihl h
      · exact ihr h
      · split at h
        · cases h
        · split at h
          · cases h
          · exact ⟨_, (Except.error.inj h).symm⟩
    | «over» | power => exact ⟨_, (Except.error.inj h).symm⟩

/-- The value of a form in two variables. -/
theorem evaluate_of_keys {form : LinearForm K} {x y : String} (hne : x ≠ y)
    (hkeys : ∀ name ∈ form.coefficients.keys, name = x ∨ name = y) :
    form.evaluate given = form.coefficients.coefficient x * given x +
      form.coefficients.coefficient y * given y + form.constant := by
  have hmem : ∀ name ∈ form.coefficients.keys, name ∈ ({x, y} : Finset String) := by simpa using hkeys
  rw [evaluate, FormalSum.value_eq_sum given hmem, Finset.sum_pair hne, smul_eq_mul, smul_eq_mul]

end LinearForm

end SchoolMath
