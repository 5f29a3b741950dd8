import SchoolMath.Proofs.Equation.Roots
import SchoolMath.Proofs.Polynomial.Compile
import SchoolMath.Proofs.Tree.Names

/-!
# `Equation.Solve` — the solutions of an equation over the reals

What `solve` returns is right for the equation and not only for the polynomial that the difference
of its sides expands to. An equation that is solved mentions one variable; where all roots are real
they are the numbers at which both sides have the same value, and where they are complex there is no
such number.
-/

namespace SchoolMath.Equation

variable {equation : Equation ℝ} {unknown : String} {p : Polynomial ℝ}

/-- At `r` both sides of the equation have a value, and it is the same. -/
def HoldsAt (equation : Equation ℝ) (unknown : String) (r : ℝ) : Prop :=
  ∃ y, equation.left.tree.value? (only unknown r) = some y ∧
    equation.right.tree.value? (only unknown r) = some y

/-! ## The difference of the sides -/

/-- The sides of an equation whose difference has a polynomial have values that differ by its value.
-/
theorem sides_of_ofTree (h : Polynomial.ofTree unknown equation.asDifference.tree = .ok p) (r : ℝ) :
    ∃ y z, equation.left.tree.value? (only unknown r) = some y ∧
      equation.right.tree.value? (only unknown r) = some z ∧ y - z = p.evaluate r := by
  have hvalue := Polynomial.value?_of_ofTree exactPowers_real h r
  simp only [asDifference, Tree.value?, Option.bind_eq_bind, Option.bind_eq_some_iff] at hvalue
  obtain ⟨y, hy, z, hz, heq⟩ := hvalue
  exact ⟨y, z, hy, hz, Option.some.inj heq⟩

/-- An equation holds where the polynomial of its difference is zero. -/
theorem holdsAt_iff (h : Polynomial.ofTree unknown equation.asDifference.tree = .ok p) (r : ℝ) :
    equation.HoldsAt unknown r ↔ p.evaluate r = 0 := by
  obtain ⟨y, z, hy, hz, hdifference⟩ := sides_of_ofTree h r
  rw [← hdifference, sub_eq_zero]
  constructor
  · rintro ⟨w, hw, hw'⟩
    rw [hy] at hw
    rw [hz] at hw'
    exact (Option.some.inj hw).trans (Option.some.inj hw').symm
  · rintro rfl
    exact ⟨y, hy, hz⟩

/-- An equation whose difference has a polynomial in its first variable has only that variable. -/
theorem unknowns_of_ofTree {others : List String}
    (hunknowns : equation.unknowns = unknown :: others)
    (h : Polynomial.ofTree unknown equation.asDifference.tree = .ok p) :
    equation.unknowns = [unknown] ∧
      ∀ name, name ∈ equation.left.tree.names ++ equation.right.tree.names ↔ name = unknown := by
  have hall : ∀ name ∈ equation.left.tree.names ++ equation.right.tree.names, name = unknown :=
    Polynomial.names_of_ofTree h
  have hmem : unknown ∈ equation.left.tree.names ++ equation.right.tree.names := by
    rw [← mem_distinctNames]
    show unknown ∈ equation.unknowns
    rw [hunknowns]
    exact List.mem_cons_self
  refine ⟨distinctNames_eq_singleton hmem hall, fun name => ⟨hall name, ?_⟩⟩
  rintro rfl
  exact hmem

/-! ## The steps of `solve` -/

/-- What an equation is solved by, over any field. -/
theorem solve_eq_ok_iff {K : Type} [Field K] [DecidableEq K] [LT K] [DecidableLT K] [Whole K]
    [SquareRoot K] {equation : Equation K} {roots : List (Root K)} :
    (∃ steps, equation.solve = .ok (roots, steps)) ↔
      ∃ unknown others p steps, equation.unknowns = unknown :: others ∧
        Polynomial.ofTree unknown equation.asDifference.tree = .ok p ∧ p.degree?.getD 0 ≤ 2 ∧
          equation.rootsOf p.dense = .ok (roots, steps) := by
  constructor
  · rintro ⟨steps, h⟩
    unfold solve at h
    split at h
    · cases h
    · next unknown others hunknowns =>
      obtain ⟨p, hp, h⟩ := bind_eq_ok.1 h
      simp only [] at h
      split at h
      · cases h
      · next hdegree =>
        obtain ⟨⟨roots', steps'⟩, hroots, heq⟩ := bind_eq_ok.1 h
        obtain ⟨rfl, -⟩ := Prod.mk.inj (Except.ok.inj heq)
        exact ⟨unknown, others, p, steps', hunknowns, hp, not_lt.1 hdegree, hroots⟩
  · rintro ⟨unknown, others, p, steps, hunknowns, hp, hdegree, hroots⟩
    unfold solve
    simp only [hunknowns, hp, ok_bind, if_neg (not_lt.2 hdegree), hroots]
    exact ⟨_, rfl⟩

/-- Roots come from the dense coefficients of the difference. -/
theorem of_solve_eq_ok {roots : List (Root ℝ)} {steps : List (Step ℝ)}
    (h : equation.solve = .ok (roots, steps)) :
    ∃ unknown others p steps', equation.unknowns = unknown :: others ∧
      Polynomial.ofTree unknown equation.asDifference.tree = .ok p ∧
      equation.rootsOf p.dense = .ok (roots, steps') := by
  obtain ⟨unknown, others, p, steps', hunknowns, hp, -, hroots⟩ := solve_eq_ok_iff.1 ⟨steps, h⟩
  exact ⟨unknown, others, p, steps', hunknowns, hp, hroots⟩

/-- An equation is found degenerate at its dense coefficients. -/
theorem of_solve_eq_degenerate {text : String} (h : equation.solve = .error (.degenerate text)) :
    ∃ unknown others p, equation.unknowns = unknown :: others ∧
      Polynomial.ofTree unknown equation.asDifference.tree = .ok p ∧
      equation.rootsOf p.dense = .error (.degenerate text) := by
  unfold solve at h
  split at h
  · cases h
  · next unknown others hunknowns =>
    rcases bind_eq_error.1 h with h | ⟨p, hp, h⟩
    · -- what the expansion fails with is always something else
      exact absurd h (Polynomial.ofTree_ne_degenerate _ text)
    · simp only [] at h
      split at h
      · cases h
      · rcases bind_eq_error.1 h with hroots | ⟨r, -, heq⟩
        · exact ⟨unknown, others, p, hunknowns, hp, hroots⟩
        · cases heq

/-! ## The solutions -/

/-- Over the reals the roots of an equation are its solutions. An equation with roots mentions
exactly one variable; either all roots are real and they are the numbers at which the equation
holds, or they are two conjugate zeros of the difference of the sides and the equation holds
nowhere. The sides of a degenerate equation differ by the same number everywhere. -/
theorem solve_solves (equation : Equation ℝ) :
    (∀ roots steps, equation.solve = .ok (roots, steps) →
      ∃ unknown, equation.unknowns = [unknown] ∧
        (∀ name, name ∈ equation.left.tree.names ++ equation.right.tree.names ↔ name = unknown) ∧
        (((∀ root ∈ roots, ∃ r, root = .real r) ∧
            ∀ r, .real r ∈ roots ↔ equation.HoldsAt unknown r) ∨
          ∃ re im p, roots = [.complex re im, .complex re (-im)] ∧ im ≠ 0 ∧
            Polynomial.ofTree unknown equation.asDifference.tree = .ok p ∧
            p.complexValue ⟨re, im⟩ = 0 ∧ p.complexValue ⟨re, -im⟩ = 0 ∧
            ∀ r, ¬ equation.HoldsAt unknown r)) ∧
    ∀ text, equation.solve = .error (.degenerate text) →
      ∃ unknown difference, equation.unknowns = [unknown] ∧
        ∀ r, ∃ y z, equation.left.tree.value? (only unknown r) = some y ∧
          equation.right.tree.value? (only unknown r) = some z ∧ y - z = difference := by
  constructor
  · intro roots steps h
    obtain ⟨unknown, others, p, steps', hunknowns, hp, hroots⟩ := of_solve_eq_ok h
    obtain ⟨hsingle, hnames⟩ := unknowns_of_ofTree hunknowns hp
    refine ⟨unknown, hsingle, hnames, ?_⟩
    rcases areRoots_of_rootsOf hroots with ⟨hreal, hiff⟩ | ⟨re, im, hpair, him, hz, hz', hnone⟩
    · refine .inl ⟨hreal, fun r => ?_⟩
      rw [hiff, holdsAt_iff hp]
    · refine .inr ⟨re, im, p, hpair, him, hp, hz, hz', fun r hr => ?_⟩
      exact hnone r ((holdsAt_iff hp r).1 hr)
  · intro text h
    obtain ⟨unknown, others, p, hunknowns, hp, hroots⟩ := of_solve_eq_degenerate h
    obtain ⟨c, hc⟩ := evaluate_of_rootsOf_eq_degenerate hroots
    refine ⟨unknown, c, (unknowns_of_ofTree hunknowns hp).1, fun r => ?_⟩
    obtain ⟨y, z, hy, hz, hdifference⟩ := sides_of_ofTree hp r
    exact ⟨y, z, hy, hz, hdifference.trans (hc r)⟩

/-- Both square roots of one are roots of `x·x = 1`. -/
theorem solve_solves_unit_square :
    let equation : Equation ℝ := ⟨⟨"x*x", .binary .times (.var "x") (.var "x")⟩, ⟨"1", .const 1⟩⟩
    ∃ roots steps, equation.solve = .ok (roots, steps) ∧ .real 1 ∈ roots ∧ .real (-1) ∈ roots := by
  intro equation
  have hunknowns : equation.unknowns = ["x"] := by decide
  obtain ⟨roots, steps, hsolve⟩ : ∃ roots steps, equation.solve = .ok (roots, steps) := by
    unfold solve
    rw [hunknowns]
    simp [equation, asDifference, Polynomial.ofTree, Polynomial.constant, Polynomial.identity,
      Polynomial.multiply, Polynomial.termPairs, addExponents, exponentLimit, Polynomial.negate,
      FormalSum.mapCoefficients, FormalSum.ofTerms, FormalSum.addTerm, FormalSum.insertTerm,
      FormalSum.empty, FormalSum.add, FormalSum.keys, FormalSum.coefficient, Polynomial.degree?,
      Polynomial.dense, List.range_succ, List.lookup, rootsOf, quadraticRoots, bind, Except.bind,
      pure, Except.pure]
  have hholds : equation.HoldsAt "x" 1 ∧ equation.HoldsAt "x" (-1) := by
    constructor <;> exact ⟨1, by simp [equation, Tree.value?, only, Operator.apply], rfl⟩
  refine ⟨roots, steps, hsolve, ?_⟩
  obtain ⟨unknown, hsingle, -, hroots⟩ := (solve_solves equation).1 roots steps hsolve
  obtain rfl : "x" = unknown := by
    rw [hunknowns] at hsingle
    exact (List.cons.inj hsingle).1
  rcases hroots with ⟨-, hiff⟩ | ⟨re, im, p, -, -, -, -, -, hnone⟩
  · exact ⟨(hiff 1).2 hholds.1, (hiff (-1)).2 hholds.2⟩
  · exact absurd hholds.1 (hnone 1)

end SchoolMath.Equation
