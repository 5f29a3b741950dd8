import SchoolMath.Equation.System
import SchoolMath.Proofs.Equation.LinearForm
import SchoolMath.Proofs.Number.Real
import SchoolMath.Proofs.Tree.Names

/-!
# `Equation.System` — the solution of two linear equations over a field

Each equation becomes a row `a·x + a'·y = b` that holds of the same values (`holds_iff_of_row`). If
the determinant of the rows is not zero, the quotients of determinants are the one solution of the
rows; if it is zero, there is another solution beside every solution, so there is not exactly one.

The main statement, `solveSystem_solves`, says this of the equations: what is returned are the only
values of the two variables at which both equations hold, and only linear equations that have no
solution or several are called singular.
-/

namespace SchoolMath

variable {K : Type} [Field K]

/-! ## Two rows -/

section Rows

variable {a a' b c c' d : K}

/-- Two rows with a determinant other than zero have the quotients of determinants as their only
solution. -/
theorem rows_iff_of_determinant_ne_zero (hdet : a * c' - a' * c ≠ 0) {u v : K} :
    a * u + a' * v = b ∧ c * u + c' * v = d ↔
      u = (b * c' - a' * d) / (a * c' - a' * c) ∧ v = (a * d - b * c) / (a * c' - a' * c) := by
  constructor
  · rintro ⟨rfl, rfl⟩
    constructor
    · rw [eq_div_iff hdet]
      ring
    · rw [eq_div_iff hdet]
      ring
  · rintro ⟨rfl, rfl⟩
    constructor
    · rw [mul_div_assoc', mul_div_assoc', ← add_div, div_eq_iff hdet]
      ring
    · rw [mul_div_assoc', mul_div_assoc', ← add_div, div_eq_iff hdet]
      ring

/-- Two rows with determinant zero take more than zero to zero. -/
theorem exists_kernel_of_determinant_eq_zero (hdet : a * c' - a' * c = 0) :
    ∃ p : K × K, p ≠ 0 ∧ a * p.1 + a' * p.2 = 0 ∧ c * p.1 + c' * p.2 = 0 := by
  by_cases hfirst : a = 0 ∧ a' = 0
  · obtain ⟨rfl, rfl⟩ := hfirst
    by_cases hsecond : c = 0 ∧ c' = 0
    · obtain ⟨rfl, rfl⟩ := hsecond
      exact ⟨(1, 0), by simp, by simp, by simp⟩
    · refine ⟨(c', -c), ?_, by simp, by ring⟩
      simpa [Prod.ext_iff, and_comm] using hsecond
  · refine ⟨(a', -a), ?_, by ring, by linear_combination -hdet⟩
    simpa [Prod.ext_iff, and_comm] using hfirst

/-- Two rows with determinant zero do not have exactly one solution. -/
theorem not_existsUnique_of_determinant_eq_zero (hdet : a * c' - a' * c = 0) :
    ¬ ∃! p : K × K, a * p.1 + a' * p.2 = b ∧ c * p.1 + c' * p.2 = d := by
  rintro ⟨p, ⟨hfirst, hsecond⟩, hunique⟩
  obtain ⟨q, hq, hfirst', hsecond'⟩ := exists_kernel_of_determinant_eq_zero hdet
  -- what both rows take to zero can be added to a solution
  have hsum : p + q = p := by
    refine hunique (p + q) ⟨?_, ?_⟩
    · simp only [Prod.fst_add, Prod.snd_add]
      linear_combination hfirst + hfirst'
    · simp only [Prod.fst_add, Prod.snd_add]
      linear_combination hsecond + hsecond'
  exact hq (by simpa using hsum)

end Rows

namespace Equation

variable {equation first second : Equation K} {x y : String}

/-! ## The row of an equation -/

/-- The names of an equation. -/
def names (equation : Equation K) : List String :=
  equation.left.tree.names ++ equation.right.tree.names

/-- A row holds the coefficients of a linear form. -/
theorem row_eq_ok {a a' b : K} :
    equation.row x y = .ok (a, a', b) ↔ ∃ form,
      LinearForm.ofTree equation.asDifference.tree = .ok form ∧
      form.coefficients.coefficient x = a ∧ form.coefficients.coefficient y = a' ∧
      -form.constant = b := by
  rw [row, bind_eq_ok]
  simp [pure, Except.pure]

/-- An equation without a row is not linear. -/
theorem row_eq_error {failure : Failure K} (h : equation.row x y = .error failure) :
    ∃ part, failure = .notLinear part := by
  rw [row, bind_eq_error] at h
  rcases h with h | ⟨form, -, h⟩
  · exact LinearForm.ofTree_eq_error h
  · cases h

section Value

variable [Pow K K]

/-- Both sides of the equation have a value when `given` gives the values of names, and it is the
same. -/
def Holds (equation : Equation K) (given : String → Option K) : Prop :=
  ∃ z, equation.left.tree.value? given = some z ∧ equation.right.tree.value? given = some z

/-- An equation holds where its linear form is zero. -/
theorem holds_iff_of_ofTree {form : LinearForm K}
    (h : LinearForm.ofTree equation.asDifference.tree = .ok form) (given : String → K) :
    equation.Holds (fun name => some (given name)) ↔ form.evaluate given = 0 := by
  have hvalue := LinearForm.value?_of_ofTree given h
  obtain ⟨z, w, hz, hw, hdifference⟩ := Tree.value?_binary_eq_some.1 hvalue
  have hdifference : z - w = form.evaluate given := hdifference
  rw [← hdifference, sub_eq_zero, Holds, hz, hw]
  simp [eq_comm]

/-- Only the values of the names of an equation matter to it. -/
theorem holds_congr {given given' : String → Option K}
    (h : ∀ name ∈ equation.names, given name = given' name) :
    equation.Holds given ↔ equation.Holds given' := by
  rw [Holds, Holds, Tree.value?_congr fun name hname => h name (List.mem_append_left _ hname),
    Tree.value?_congr fun name hname => h name (List.mem_append_right _ hname)]

/-- Where an equation holds its names have values. -/
theorem Holds.isSome {given : String → Option K} (h : equation.Holds given) :
    ∀ name ∈ equation.names, (given name).isSome = true := by
  obtain ⟨z, hleft, hright⟩ := h
  exact List.forall_mem_append.2 ⟨Tree.isSome_of_value? hleft, Tree.isSome_of_value? hright⟩

/-- An equation in two variables holds where its row does. -/
theorem holds_iff_of_row {a a' b : K} (hne : x ≠ y)
    (hnames : ∀ name ∈ equation.names, name = x ∨ name = y)
    (h : equation.row x y = .ok (a, a', b)) {given : String → Option K} {u v : K}
    (hx : given x = some u) (hy : given y = some v) :
    equation.Holds given ↔ a * u + a' * v = b := by
  obtain ⟨form, hform, rfl, rfl, rfl⟩ := row_eq_ok.1 h
  have hkeys : ∀ name ∈ form.coefficients.keys, name = x ∨ name = y := fun name hname =>
    hnames name (LinearForm.keys_of_ofTree hform name hname)
  have htotal : ∀ name ∈ equation.names, given name = some ((given name).getD 0) := by
    intro name hname
    rcases hnames name hname with rfl | rfl
    · rw [hx, Option.getD_some]
    · rw [hy, Option.getD_some]
  rw [holds_congr htotal, holds_iff_of_ofTree hform,
    LinearForm.evaluate_of_keys _ hne hkeys, hx, hy, Option.getD_some, Option.getD_some,
    eq_neg_iff_add_eq_zero]

end Value

/-! ## The steps of `solveSystem` -/

section Steps

omit [Field K] in
/-- The two names of a system are different, and they are the names of its equations. -/
theorem names_of_systemUnknowns (h : systemUnknowns [first, second] = [x, y]) :
    x ≠ y ∧ ∀ name, name ∈ first.names ++ second.names ↔ name = x ∨ name = y := by
  constructor
  · have hascending := ascending_distinctNames
      ([first, second].flatMap fun e => e.left.tree.names ++ e.right.tree.names)
    rw [← systemUnknowns, h] at hascending
    rintro rfl
    exact absurd ((List.pairwise_cons.1 hascending).1 x List.mem_cons_self) (lt_irrefl x)
  · intro name
    have hmem : name ∈ systemUnknowns [first, second] ↔ name ∈ first.names ++ second.names := by
      rw [systemUnknowns, mem_distinctNames]
      simp [names]
    rw [← hmem, h]
    simp

variable [DecidableEq K]

/-- Two equations are solved if they have rows with a determinant other than zero. -/
theorem of_solvePair_eq_ok {solution : Solution K} {steps : List (Step K)}
    (h : solvePair first second x y = .ok (solution, steps)) :
    ∃ a a' b c c' d, first.row x y = .ok (a, a', b) ∧ second.row x y = .ok (c, c', d) ∧
      a * c' - a' * c ≠ 0 ∧
      solution = .assignment [(x, (b * c' - a' * d) / (a * c' - a' * c)),
        (y, (a * d - b * c) / (a * c' - a' * c))] := by
  simp only [solvePair, bind_eq_ok] at h
  obtain ⟨⟨a, a', b⟩, hfirst, ⟨c, c', d⟩, hsecond, h⟩ := h
  refine ⟨a, a', b, c, c', d, hfirst, hsecond, ?_⟩
  simp only [] at h
  split at h
  · cases h
  · next hdet =>
    obtain ⟨rfl, -⟩ := Prod.mk.inj (Except.ok.inj h)
    exact ⟨by simpa using hdet, rfl⟩

/-- Two equations are found singular if they have rows with determinant zero. -/
theorem of_solvePair_eq_singular {text : String}
    (h : solvePair first second x y = .error (.singularSystem text)) :
    ∃ a a' b c c' d, first.row x y = .ok (a, a', b) ∧ second.row x y = .ok (c, c', d) ∧
      a * c' - a' * c = 0 := by
  have hrow : ∀ e : Equation K, e.row x y ≠ .error (.singularSystem text) := by
    intro e h
    obtain ⟨part, heq⟩ := row_eq_error h
    cases heq
  simp only [solvePair, bind_eq_error] at h
  rcases h with h | ⟨⟨a, a', b⟩, hfirst, h | ⟨⟨c, c', d⟩, hsecond, h⟩⟩
  · exact absurd h (hrow first)
  · exact absurd h (hrow second)
  · refine ⟨a, a', b, c, c', d, hfirst, hsecond, ?_⟩
    simp only [] at h
    split at h
    · next hdet => simpa using hdet
    · cases h

variable [LT K] [DecidableLT K] [Whole K] [SquareRoot K]

/-- Two equations in two variables are solved as such. -/
theorem solveSystem_pair (h : systemUnknowns [first, second] = [x, y]) :
    solveSystem [first, second] = solvePair first second x y := by
  unfold solveSystem
  rw [h]

/-- Two equations with another number of variables are refused for their shape. -/
theorem solveSystem_eq_error (h : ¬ ∃ x y, systemUnknowns [first, second] = [x, y]) :
    ∃ failure, solveSystem [first, second] = .error failure ∧
      ∀ text, failure ≠ .singularSystem text := by
  unfold solveSystem
  split
  · exact ⟨_, rfl, nofun⟩
  · next heq => cases heq
  · next hunknowns heq =>
    cases heq
    exact absurd ⟨_, _, hunknowns⟩ h
  · exact ⟨_, rfl, nofun⟩

end Steps

/-! ## The solution -/

section Solution

variable [Pow K K] {a a' b c c' d : K}

/-- Two equations in two variables hold where their rows do. -/
theorem holds_pair_iff_of_rows (hne : x ≠ y)
    (hnames : ∀ name, name ∈ first.names ++ second.names ↔ name = x ∨ name = y)
    (hfirst : first.row x y = .ok (a, a', b)) (hsecond : second.row x y = .ok (c, c', d))
    {given : String → Option K} {u v : K} (hx : given x = some u) (hy : given y = some v) :
    first.Holds given ∧ second.Holds given ↔ a * u + a' * v = b ∧ c * u + c' * v = d := by
  have hnames' : ∀ name ∈ first.names, name = x ∨ name = y := fun name hname =>
    (hnames name).1 (List.mem_append_left _ hname)
  have hnames'' : ∀ name ∈ second.names, name = x ∨ name = y := fun name hname =>
    (hnames name).1 (List.mem_append_right _ hname)
  rw [holds_iff_of_row hne hnames' hfirst hx hy, holds_iff_of_row hne hnames'' hsecond hx hy]

/-- Where both equations hold, their variables have values. -/
theorem exists_values_of_holds
    (hnames : ∀ name, name ∈ first.names ++ second.names ↔ name = x ∨ name = y)
    {given : String → Option K} (hfirst : first.Holds given) (hsecond : second.Holds given) :
    ∃ u v, given x = some u ∧ given y = some v := by
  have hsome : ∀ name ∈ first.names ++ second.names, (given name).isSome = true :=
    List.forall_mem_append.2 ⟨hfirst.isSome, hsecond.isSome⟩
  obtain ⟨u, hu⟩ := Option.isSome_iff_exists.1 (hsome x ((hnames x).2 (.inl rfl)))
  obtain ⟨v, hv⟩ := Option.isSome_iff_exists.1 (hsome y ((hnames y).2 (.inr rfl)))
  exact ⟨u, v, hu, hv⟩

omit [Field K] [Pow K K] in
/-- Values for two names. -/
theorem lookup_pair (hne : x ≠ y) (u v : K) :
    [(x, u), (y, v)].lookup x = some u ∧ [(x, u), (y, v)].lookup y = some v := by
  have hbeq : (y == x) = false := by simpa using hne.symm
  simp [List.lookup_cons, hbeq]

variable [DecidableEq K]

/-- A solved pair of equations holds at the solution, and only there. -/
theorem holds_of_solvePair_eq_ok {solution : Solution K} {steps : List (Step K)} (hne : x ≠ y)
    (hnames : ∀ name, name ∈ first.names ++ second.names ↔ name = x ∨ name = y)
    (h : solvePair first second x y = .ok (solution, steps)) :
    ∃ u v, solution = .assignment [(x, u), (y, v)] ∧
      (first.Holds ([(x, u), (y, v)].lookup ·) ∧ second.Holds ([(x, u), (y, v)].lookup ·)) ∧
      ∀ given, first.Holds given → second.Holds given → given x = some u ∧ given y = some v := by
  obtain ⟨a, a', b, c, c', d, hfirst, hsecond, hdet, hsolution⟩ := of_solvePair_eq_ok h
  obtain ⟨hx, hy⟩ := lookup_pair hne ((b * c' - a' * d) / (a * c' - a' * c))
    ((a * d - b * c) / (a * c' - a' * c))
  refine ⟨_, _, hsolution, ?_, ?_⟩
  · rw [holds_pair_iff_of_rows hne hnames hfirst hsecond hx hy]
    exact (rows_iff_of_determinant_ne_zero hdet).2 ⟨rfl, rfl⟩
  · intro given hgiven hgiven'
    obtain ⟨u, v, hu, hv⟩ := exists_values_of_holds hnames hgiven hgiven'
    have hrows := (holds_pair_iff_of_rows hne hnames hfirst hsecond hu hv).1 ⟨hgiven, hgiven'⟩
    obtain ⟨rfl, rfl⟩ := (rows_iff_of_determinant_ne_zero hdet).1 hrows
    exact ⟨hu, hv⟩

/-- A singular pair of equations is linear and does not hold at exactly one pair of values. -/
theorem not_existsUnique_of_solvePair_eq_singular {text : String} (hne : x ≠ y)
    (hnames : ∀ name, name ∈ first.names ++ second.names ↔ name = x ∨ name = y)
    (h : solvePair first second x y = .error (.singularSystem text)) :
    (∃ form, LinearForm.ofTree first.asDifference.tree = .ok form) ∧
      (∃ form, LinearForm.ofTree second.asDifference.tree = .ok form) ∧
      ¬ ∃! p : K × K, first.Holds ([(x, p.1), (y, p.2)].lookup ·) ∧
        second.Holds ([(x, p.1), (y, p.2)].lookup ·) := by
  obtain ⟨a, a', b, c, c', d, hfirst, hsecond, hdet⟩ := of_solvePair_eq_singular h
  obtain ⟨form, hform, -⟩ := row_eq_ok.1 hfirst
  obtain ⟨form', hform', -⟩ := row_eq_ok.1 hsecond
  refine ⟨⟨form, hform⟩, ⟨form', hform'⟩, ?_⟩
  have hrows : ∀ p : K × K, (first.Holds ([(x, p.1), (y, p.2)].lookup ·) ∧
      second.Holds ([(x, p.1), (y, p.2)].lookup ·)) ↔
        a * p.1 + a' * p.2 = b ∧ c * p.1 + c' * p.2 = d := by
    intro p
    obtain ⟨hx, hy⟩ := lookup_pair hne p.1 p.2
    exact holds_pair_iff_of_rows hne hnames hfirst hsecond hx hy
  rw [existsUnique_congr hrows]
  exact not_existsUnique_of_determinant_eq_zero hdet

variable [LT K] [DecidableLT K] [Whole K] [SquareRoot K]

/-- Over a field the values that are returned for two equations are values for the two variables of
the equations. Both equations hold at these values, and at no others. Two equations in two variables
are found singular only if both are linear and they do not hold together at exactly one pair of
values. -/
theorem solveSystem_solves (first second : Equation K) :
    (∀ values steps, solveSystem [first, second] = .ok (.assignment values, steps) →
      ∃ x y u v, values = [(x, u), (y, v)] ∧ x ≠ y ∧
        (∀ name, name ∈ first.names ++ second.names ↔ name = x ∨ name = y) ∧
        (first.Holds (values.lookup ·) ∧ second.Holds (values.lookup ·)) ∧
        ∀ given, first.Holds given → second.Holds given → given x = some u ∧ given y = some v) ∧
    ∀ text, solveSystem [first, second] = .error (.singularSystem text) →
      ∃ x y, x ≠ y ∧ (∀ name, name ∈ first.names ++ second.names ↔ name = x ∨ name = y) ∧
        (∃ form, LinearForm.ofTree first.asDifference.tree = .ok form) ∧
        (∃ form, LinearForm.ofTree second.asDifference.tree = .ok form) ∧
        ¬ ∃! p : K × K, first.Holds ([(x, p.1), (y, p.2)].lookup ·) ∧
          second.Holds ([(x, p.1), (y, p.2)].lookup ·) := by
  by_cases hpair : ∃ x y, systemUnknowns [first, second] = [x, y]
  · obtain ⟨x, y, hunknowns⟩ := hpair
    obtain ⟨hne, hnames⟩ := names_of_systemUnknowns hunknowns
    rw [solveSystem_pair hunknowns]
    constructor
    · intro values steps h
      obtain ⟨u, v, heq, hholds, honly⟩ := holds_of_solvePair_eq_ok hne hnames h
      obtain rfl := Solution.assignment.inj heq
      exact ⟨x, y, u, v, rfl, hne, hnames, hholds, honly⟩
    · intro text h
      exact ⟨x, y, hne, hnames, not_existsUnique_of_solvePair_eq_singular hne hnames h⟩
  · -- equations of another shape are neither solved nor called singular
    obtain ⟨failure, hsolve, hfailure⟩ := solveSystem_eq_error hpair
    rw [hsolve]
    exact ⟨nofun, fun text h => absurd (Except.error.inj h) (hfailure text)⟩

/-- Two lines that cross, and one line with itself. -/
theorem solveSystem_solves_crossing_lines :
    let x : Tree ℝ := .var "x"
    let y : Tree ℝ := .var "y"
    let first : Equation ℝ := ⟨⟨"2*(x+y)", .binary .times (.const 2) (.binary .plus x y)⟩,
      ⟨"x+8", .binary .plus x (.const 8)⟩⟩
    let second : Equation ℝ := ⟨⟨"x-y", .binary .minus x y⟩, ⟨"-1", .neg (.const 1)⟩⟩
    (∃ steps, solveSystem [first, second] = .ok (.assignment [("x", 2), ("y", 3)], steps) ∧
      first.Holds ([("x", 2), ("y", 3)].lookup ·) ∧
      second.Holds ([("x", 2), ("y", 3)].lookup ·)) ∧
    ∃ text, solveSystem [second, second] = .error (.singularSystem text) ∧
      ∃ x y, ¬ ∃! p : ℝ × ℝ, second.Holds ([(x, p.1), (y, p.2)].lookup ·) ∧
        second.Holds ([(x, p.1), (y, p.2)].lookup ·) := by
  intro x y first second
  have hlt : "x" < "y" := by decide
  have hbeq : ("y" == "x") = false := by decide
  have hrows : first.row "x" "y" = .ok (1, 2, 8) ∧ second.row "x" "y" = .ok (1, -1, -1) := by
    constructor <;>
    norm_num [row, x, y, first, second, asDifference, LinearForm.ofTree, LinearForm.ofConstant,
      LinearForm.ofName, LinearForm.scale, LinearForm.addScaled, LinearForm.isConstant,
      FormalSum.add, FormalSum.mapCoefficients, FormalSum.addTerm, FormalSum.insertTerm,
      FormalSum.empty, FormalSum.coefficient, List.lookup, bind, Except.bind, pure, Except.pure,
      hlt, hlt.not_gt, hbeq]
  have hsolved := solveSystem_pair (show systemUnknowns [first, second] = ["x", "y"] by decide)
  have hsingular := solveSystem_pair (show systemUnknowns [second, second] = ["x", "y"] by decide)
  simp only [solvePair, hrows.1, hrows.2, ok_bind] at hsolved hsingular
  norm_num at hsolved hsingular
  obtain ⟨hsolves, -⟩ := solveSystem_solves first second
  obtain ⟨-, hsingular'⟩ := solveSystem_solves second second
  obtain ⟨_, _, _, _, -, -, -, hholds, -⟩ := hsolves _ _ hsolved
  obtain ⟨x, y, -, -, -, -, hnot⟩ := hsingular' _ hsingular
  exact ⟨⟨_, hsolved, hholds⟩, _, hsingular, x, y, hnot⟩

end Solution

end Equation

end SchoolMath
