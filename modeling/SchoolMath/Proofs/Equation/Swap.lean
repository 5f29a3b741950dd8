import SchoolMath.Proofs.Equation.Solve

/-!
# `Equation.Swap` — an equation with its sides swapped

Swapping the sides of an equation changes the sign of the polynomial that it is solved by, and of
nothing else. The root of a linear polynomial stays the same; of a quadratic one the discriminant stays,
and the leading coefficient, by which the formulas divide, changes its sign, so the two roots change
places. Hence the roots come in reverse order (`solve_swap`), and there are none for one order of the
sides exactly if there are none for the other.

Arithmetic is that of a field. Of the square root and of the order nothing is asked, since both runs
take the same root and compare the same discriminant.
-/

namespace SchoolMath

/-- The equation with its sides swapped. -/
def Equation.swap {K : Type} (equation : Equation K) : Equation K := ⟨equation.right, equation.left⟩

namespace Polynomial

variable {K : Type} [CommRing K]

theorem keys_negate (p : Polynomial K) : p.negate.keys = p.keys := FormalSum.keys_mapCoefficients _ p

theorem coefficient_negate (p : Polynomial K) (n : Nat) :
    p.negate.coefficient n = -p.coefficient n := FormalSum.coefficient_mapCoefficients_neg p n

/-- Changing the signs changes no exponent. -/
theorem degree?_negate (p : Polynomial K) : p.negate.degree? = p.degree? := by
  rw [degree?, keys_negate, degree?]

theorem dense_negate (p : Polynomial K) : p.negate.dense = p.dense.map (-·) := by
  unfold dense
  rw [degree?_negate]
  cases p.degree? with
  | none => rfl
  | some degree =>
    rw [List.map_map]
    exact List.map_congr_left fun n _ => coefficient_negate p n

/-- A difference the other way round has the other signs. -/
theorem add_negate_comm (p q : Polynomial K) :
    q.add p.negate = negate (FormalSum.add p q.negate) := by
  apply FormalSum.ext_coefficient
  · intro n
    rw [keys_negate, FormalSum.mem_keys_add, FormalSum.mem_keys_add, keys_negate, keys_negate,
      or_comm]
  · intro n
    rw [coefficient_negate, FormalSum.coefficient_add, FormalSum.coefficient_add, coefficient_negate,
      coefficient_negate]
    ring

/-- The polynomial of the difference of the sides changes its sign with the order of the sides. -/
theorem ofTree_swap [DecidableEq K] [Whole K] {equation : Equation K} {unknown : String}
    {p : Polynomial K} (h : ofTree unknown equation.asDifference.tree = .ok p) :
    ofTree unknown equation.swap.asDifference.tree = .ok p.negate := by
  simp only [Equation.asDifference, ofTree, bind_eq_ok] at h
  obtain ⟨left, hleft, right, hright, heq⟩ := h
  obtain rfl : left.add right.negate = p := Except.ok.inj heq
  simp only [Equation.asDifference, Equation.swap, ofTree, hleft, hright, ok_bind]
  rw [← add_negate_comm]
  rfl

end Polynomial

namespace Equation

variable {K : Type}

theorem swap_swap (equation : Equation K) : equation.swap.swap = equation := rfl

/-- The order of the sides makes no difference to the unknowns. -/
theorem unknowns_swap (equation : Equation K) : equation.swap.unknowns = equation.unknowns := by
  refine distinctNames_congr fun name => ?_
  rw [List.mem_append, List.mem_append, or_comm]
  rfl

variable [Field K] [DecidableEq K] [LT K] [DecidableLT K] [Whole K] [SquareRoot K]
  {equation : Equation K} {roots : List (Root K)} {steps : List (Step K)}

/-! ## The roots of a polynomial with the other signs -/

omit [LT K] [DecidableLT K] [Whole K] [SquareRoot K] in
/-- A linear equation has the same root. -/
theorem linearRoots_neg (other : Equation K) {a b : K}
    (h : equation.linearRoots a b = .ok (roots, steps)) :
    ∃ steps', other.linearRoots (-a) (-b) = .ok (roots.reverse, steps') := by
  unfold linearRoots at h
  split at h
  · cases h
  · next ha =>
    have ha : ¬ (-a == 0) = true := by simpa using ha
    obtain ⟨rfl, -⟩ := Prod.mk.inj (Except.ok.inj h)
    have hroot : - -b / -a = -b / a := neg_div_neg_eq (-b) a
    rw [linearRoots, if_neg ha, hroot]
    exact ⟨_, rfl⟩

omit [DecidableEq K] [Whole K] in
/-- The two roots of a quadratic equation change places, since the divisor changes its sign. -/
theorem quadraticFormula_neg (a b discriminant : K) :
    quadraticFormula (-a) (-b) discriminant = (quadraticFormula a b discriminant).reverse := by
  have hdivisor : ((2 : Nat) : K) * -a = -(((2 : Nat) : K) * a) := mul_neg _ _
  unfold quadraticFormula
  rw [hdivisor]
  split
  · rw [neg_div_neg_eq]
    simp only [div_neg, neg_neg, List.reverse_cons, List.reverse_nil, List.nil_append,
      List.cons_append]
  · have hplus : ∀ root : K, (- -b + root) / -(((2 : Nat) : K) * a) =
        (-b - root) / (((2 : Nat) : K) * a) := by
      intro root
      rw [div_neg, ← neg_div, neg_add, neg_neg, ← sub_eq_add_neg]
    have hminus : ∀ root : K, (- -b - root) / -(((2 : Nat) : K) * a) =
        (-b + root) / (((2 : Nat) : K) * a) := by
      intro root
      rw [div_neg, ← neg_div, neg_sub, neg_neg, sub_eq_add_neg, add_comm]
    simp only [hplus, hminus, List.reverse_cons, List.reverse_nil, List.nil_append,
      List.cons_append]

omit [Whole K] in
theorem quadraticRoots_neg (other : Equation K) {a b c : K}
    (h : equation.quadraticRoots a b c = .ok (roots, steps)) :
    ∃ steps', other.quadraticRoots (-a) (-b) (-c) = .ok (roots.reverse, steps') := by
  unfold quadraticRoots at h
  split at h
  · -- without a square both orders fall to the linear case
    next ha =>
    have ha : (-a == 0) = true := by simpa using ha
    obtain ⟨⟨roots', steps'⟩, hlinear, heq⟩ := bind_eq_ok.1 h
    obtain ⟨rfl, -⟩ := Prod.mk.inj (Except.ok.inj heq)
    obtain ⟨steps'', hlinear⟩ := linearRoots_neg other hlinear
    rw [quadraticRoots, if_pos ha, hlinear]
    exact ⟨_, rfl⟩
  · next ha =>
    have ha : ¬ (-a == 0) = true := by simpa using ha
    have hdiscriminant : -b * -b - ((4 : Nat) : K) * -a * -c = b * b - ((4 : Nat) : K) * a * c := by
      ring
    obtain ⟨rfl, -⟩ := Prod.mk.inj (Except.ok.inj h)
    rw [quadraticRoots, if_neg ha, hdiscriminant, ← quadraticFormula_neg]
    exact ⟨_, rfl⟩

omit [Whole K] in
/-- Other signs of all coefficients reverse the roots. -/
theorem rootsOf_neg (other : Equation K) {coefficients : List K}
    (h : equation.rootsOf coefficients = .ok (roots, steps)) :
    ∃ steps', other.rootsOf (coefficients.map (-·)) = .ok (roots.reverse, steps') := by
  unfold rootsOf at h
  split at h
  · exact linearRoots_neg other h
  · exact quadraticRoots_neg other h
  · cases h

/-! ## The two orders of the sides -/

/-- Roots of an equation are in reverse order those of the equation with its sides swapped. -/
theorem solve_swap_of_eq_ok (h : equation.solve = .ok (roots, steps)) :
    ∃ steps', equation.swap.solve = .ok (roots.reverse, steps') := by
  obtain ⟨unknown, others, p, steps', hunknowns, hp, hdegree, hroots⟩ := solve_eq_ok_iff.1 ⟨steps, h⟩
  obtain ⟨steps'', hroots⟩ := rootsOf_neg equation.swap hroots
  refine solve_eq_ok_iff.2 ⟨unknown, others, p.negate, steps'', ?_, Polynomial.ofTree_swap hp, ?_, ?_⟩
  · rw [unknowns_swap, hunknowns]
  · rwa [Polynomial.degree?_negate]
  · rwa [Polynomial.dense_negate]

/-- An equation has the given roots exactly if with its sides swapped it has them in reverse order: a
single root is the same, and two roots, real or complex, change places. So it is solved for one order of
the sides exactly if it is for the other. -/
theorem solve_swap (equation : Equation K) (roots : List (Root K)) :
    (∃ steps, equation.solve = .ok (roots, steps)) ↔
      ∃ steps, equation.swap.solve = .ok (roots.reverse, steps) := by
  constructor
  · rintro ⟨steps, h⟩
    exact solve_swap_of_eq_ok h
  · rintro ⟨steps, h⟩
    obtain ⟨steps', h⟩ := solve_swap_of_eq_ok h
    rw [swap_swap, List.reverse_reverse] at h
    exact ⟨steps', h⟩

end Equation

end SchoolMath
