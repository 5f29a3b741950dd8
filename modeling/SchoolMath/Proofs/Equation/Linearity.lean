import SchoolMath.Proofs.Equation.LinearForm
import SchoolMath.Proofs.Polynomial.Coefficient
import SchoolMath.Proofs.Polynomial.Compile
import SchoolMath.Proofs.Polynomial.Dense

/-!
# `Equation.Linearity` — linear forms and polynomials of degree at most one

A side of an equation in one variable can be taken apart in two ways: as a linear form, and as a
polynomial. For a tree without powers the two agree (`ofTree_iff_degree_le_one`): it has a linear form
exactly if it has a polynomial of degree at most one, and then with the same two coefficients.

They decide differently. A linear form refuses a product unless one factor has no name in it; a
polynomial is refused afterwards, by its degree. The proof is an induction on the tree. It carries that
a linear form has the name exactly where the polynomial has the exponent one (`Matches`), whether the
coefficient there has cancelled or not; and that a tree that was refused as a linear form has an exponent
of at least two, which no operation ever loses, if it has a polynomial at all.
-/

namespace SchoolMath

variable {K : Type}

/-- No power stands in the tree. -/
def Tree.IsPowerFree : Tree K → Prop
  | .const _ | .var _ => True
  | .neg operand => operand.IsPowerFree
  | .binary op left right => op ≠ .power ∧ left.IsPowerFree ∧ right.IsPowerFree

namespace LinearForm

variable [CommRing K] {unknown : String}

/-! ## Linear forms and polynomials with the same coefficients -/

/-- The linear form and the polynomial have the same terms. -/
structure Matches (unknown : String) (form : LinearForm K) (p : Polynomial K) : Prop where
  le_one : ∀ n ∈ p.keys, n ≤ 1
  exists_exponent : ∃ n, n ∈ p.keys
  /-- The exponent one stands for the name, also if its coefficient is zero. -/
  isConstant_iff : form.isConstant = true ↔ 1 ∉ p.keys
  coefficient : form.coefficients.coefficient unknown = p.coefficient 1
  constant : form.constant = p.coefficient 0

theorem coefficient_empty (name : String) :
    (FormalSum.empty : FormalSum String K).coefficient name = 0 := rfl

theorem coefficient_ofName (name : String) :
    (ofName name : LinearForm K).coefficients.coefficient name = 1 := by
  simp [ofName, FormalSum.coefficient]

theorem matches_constant (value : K) :
    Matches unknown (ofConstant value) (Polynomial.constant value) where
  le_one n hn := by
    rw [Polynomial.constant, FormalSum.mem_keys_ofTerms, List.map_singleton,
      List.mem_singleton] at hn
    omega
  exists_exponent := ⟨0, by simp [Polynomial.constant, FormalSum.mem_keys_ofTerms]⟩
  isConstant_iff := by
    simp [Polynomial.constant, FormalSum.mem_keys_ofTerms, isConstant, ofConstant, FormalSum.empty]
  coefficient := by
    simp [Polynomial.constant, FormalSum.coefficient_ofTerms, ofConstant, coefficient_empty]
  constant := by simp [Polynomial.constant, FormalSum.coefficient_ofTerms, ofConstant]

theorem matches_name : Matches unknown (ofName unknown : LinearForm K) Polynomial.identity where
  le_one n hn := by
    rw [Polynomial.identity, FormalSum.mem_keys_ofTerms, List.map_singleton,
      List.mem_singleton] at hn
    omega
  exists_exponent := ⟨1, by simp [Polynomial.identity, FormalSum.mem_keys_ofTerms]⟩
  isConstant_iff := by
    simp [Polynomial.identity, FormalSum.mem_keys_ofTerms, isConstant, ofName]
  coefficient := by
    rw [coefficient_ofName, Polynomial.identity, FormalSum.coefficient_ofTerms]
    simp
  constant := by simp [Polynomial.identity, FormalSum.coefficient_ofTerms, ofName]

/-- No name occurs in a form scaled or negated that does not occur in the form. -/
theorem isConstant_scale (form : LinearForm K) (factor : K) :
    (form.scale factor).isConstant = form.isConstant := by
  simp [isConstant, scale, FormalSum.mapCoefficients]

theorem coefficient_scale (form : LinearForm K) (factor : K) (name : String) :
    (form.scale factor).coefficients.coefficient name =
      factor * form.coefficients.coefficient name := by
  have hmul : form.coefficients.mapCoefficients (· * factor) =
      form.coefficients.mapCoefficients (factor * ·) := by
    simp only [mul_comm]
  rw [scale, hmul, FormalSum.coefficient_mapCoefficients_mul]

/-- A sum of forms is constant if both are. -/
theorem isConstant_addScaled (first second : LinearForm K) (sign : K) :
    (first.addScaled sign second).isConstant = true ↔
      first.isConstant = true ∧ second.isConstant = true := by
  have hkeys : ∀ form : LinearForm K, form.isConstant = true ↔ ∀ name, name ∉ form.coefficients.keys := by
    intro form
    rw [isConstant, List.isEmpty_iff, ← List.map_eq_nil_iff, List.eq_nil_iff_forall_not_mem]
    rfl
  simp only [hkeys, addScaled, FormalSum.mem_keys_add, FormalSum.keys_mapCoefficients, not_or,
    forall_and]

variable {first second : LinearForm K} {p q r : Polynomial K}

theorem Matches.scale_neg (h : Matches unknown first p) :
    Matches unknown (first.scale (-1)) p.negate where
  le_one n hn := h.le_one n (by rwa [Polynomial.negate, FormalSum.keys_mapCoefficients] at hn)
  exists_exponent := by
    rw [Polynomial.negate, FormalSum.keys_mapCoefficients]
    exact h.exists_exponent
  isConstant_iff := by
    rw [isConstant_scale, Polynomial.negate, FormalSum.keys_mapCoefficients]
    exact h.isConstant_iff
  coefficient := by
    rw [coefficient_scale, Polynomial.negate, FormalSum.coefficient_mapCoefficients_neg,
      h.coefficient, neg_one_mul]
  constant := by
    rw [scale, Polynomial.negate, FormalSum.coefficient_mapCoefficients_neg, h.constant,
      mul_neg_one]

/-- A form plus a multiple of another matches the polynomial with the sums of the coefficients. -/
theorem Matches.addScaled {sign : K} (hp : Matches unknown first p) (hq : Matches unknown second q)
    (hkeys : ∀ n, n ∈ r.keys ↔ n ∈ p.keys ∨ n ∈ q.keys)
    (hcoefficient : ∀ n, r.coefficient n = p.coefficient n + sign * q.coefficient n) :
    Matches unknown (first.addScaled sign second) r where
  le_one n hn := ((hkeys n).1 hn).elim (hp.le_one n) (hq.le_one n)
  exists_exponent := hp.exists_exponent.imp fun n hn => (hkeys n).2 (.inl hn)
  isConstant_iff := by
    rw [isConstant_addScaled, hp.isConstant_iff, hq.isConstant_iff, hkeys, not_or]
  coefficient := by
    rw [LinearForm.addScaled, FormalSum.coefficient_add, FormalSum.coefficient_mapCoefficients_mul,
      hp.coefficient, hq.coefficient, hcoefficient]
  constant := by rw [LinearForm.addScaled, hp.constant, hq.constant, hcoefficient]

/-- A constant has no exponent but zero. -/
theorem Matches.eq_zero (h : Matches unknown first p) (hconstant : first.isConstant = true) :
    ∀ n ∈ p.keys, n = 0 := by
  intro n hn
  have hle := h.le_one n hn
  have hne : n ≠ 1 := fun heq => h.isConstant_iff.1 hconstant (heq ▸ hn)
  omega

/-- The exponents of a product with a constant are those of the other factor. -/
theorem Matches.mem_keys_product (h : Matches unknown first p) (hconstant : first.isConstant = true)
    (hproduct : Polynomial.IsProduct p q r) (n : Nat) : n ∈ r.keys ↔ n ∈ q.keys := by
  rw [hproduct.mem_keys_iff]
  constructor
  · rintro ⟨i, hi, j, hj, rfl⟩
    rwa [h.eq_zero hconstant i hi, Nat.zero_add]
  · intro hn
    obtain ⟨i, hi⟩ := h.exists_exponent
    exact ⟨i, hi, n, hn, by rw [h.eq_zero hconstant i hi, Nat.zero_add]⟩

/-- A form scaled by a constant matches the product of the polynomials. -/
theorem Matches.scale (hp : Matches unknown first p) (hq : Matches unknown second q)
    (hconstant : first.isConstant = true) (hproduct : Polynomial.IsProduct p q r) :
    Matches unknown (second.scale first.constant) r := by
  have hkeys := hp.mem_keys_product hconstant hproduct
  have hlinear : p.coefficient 1 = 0 := by
    have hempty : first.coefficients.terms = [] := List.isEmpty_iff.1 hconstant
    rw [← hp.coefficient, FormalSum.coefficient, hempty]
    rfl
  refine ⟨fun n hn => hq.le_one n ((hkeys n).1 hn), ?_, ?_, ?_, ?_⟩
  · exact hq.exists_exponent.imp fun n hn => (hkeys n).2 hn
  · rw [isConstant_scale, hq.isConstant_iff, hkeys]
  · rw [coefficient_scale, hproduct.coefficient_eq, hp.constant, hq.coefficient]
    simp [Finset.Nat.antidiagonal_succ, hlinear]
  · rw [LinearForm.scale, hproduct.coefficient_eq, hp.constant, hq.constant]
    simp [mul_comm]

/-- Exponents up to one are in range together, so a product of two such polynomials exists. -/
theorem Matches.exists_multiply (hp : Matches unknown first p) (hq : Matches unknown second q) :
    ∃ r, p.multiply q = .ok r := by
  cases hproduct : p.multiply q with
  | ok r => exact ⟨r, rfl⟩
  | error failure =>
    obtain ⟨m, hm, n, hn, hrange, -⟩ := Polynomial.multiply_eq_error hproduct
    have hm := hp.le_one m hm
    have hn := hq.le_one n hn
    unfold exponentLimit at hrange
    omega

/-! ## The two decompositions of a tree -/

variable [DecidableEq K] [Whole K] {t left right : Tree K}

/-- Either the tree has a linear form and a polynomial with the same terms, or it has no linear form,
and no polynomial either unless one with an exponent of at least two. -/
def Decomposes (unknown : String) (t : Tree K) : Prop :=
  (∃ form p, ofTree t = .ok form ∧ Polynomial.ofTree unknown t = .ok p ∧ Matches unknown form p) ∨
  ((∃ failure, ofTree t = .error failure) ∧
    ∀ p, Polynomial.ofTree unknown t = .ok p → ∃ n ∈ p.keys, 2 ≤ n)

/-- A polynomial of such a tree has an exponent. -/
theorem Decomposes.exists_exponent (h : Decomposes unknown t) (hp : Polynomial.ofTree unknown t = .ok p) :
    ∃ n, n ∈ p.keys := by
  rcases h with ⟨form, p', -, hp', hmatches⟩ | ⟨-, hlarge⟩
  · obtain rfl : p' = p := Except.ok.inj (hp'.symm.trans hp)
    exact hmatches.exists_exponent
  · obtain ⟨n, hn, -⟩ := hlarge p hp
    exact ⟨n, hn⟩

theorem Decomposes.neg (h : Decomposes unknown t) : Decomposes unknown (.neg t) := by
  rcases h with ⟨form, p, hform, hp, hmatches⟩ | ⟨⟨failure, hform⟩, hlarge⟩
  · refine .inl ⟨form.scale (-1), p.negate, ?_, ?_, hmatches.scale_neg⟩
    · rw [ofTree, hform]
      rfl
    · rw [Polynomial.ofTree, hp]
      rfl
  · refine .inr ⟨⟨failure, ?_⟩, ?_⟩
    · rw [ofTree, hform]
      rfl
    · intro r hr
      rw [Polynomial.ofTree, bind_eq_ok] at hr
      obtain ⟨p, hp, heq⟩ := hr
      obtain rfl : p.negate = r := Except.ok.inj heq
      rw [Polynomial.negate, FormalSum.keys_mapCoefficients]
      exact hlarge p hp

/-- An operation on trees decomposes if both parts do and the two ways to combine their parts match.
An operation never loses an exponent of at least two. -/
theorem Decomposes.binary {op : Operator}
    (combine : LinearForm K → LinearForm K → Except (Failure K) (LinearForm K))
    (combine' : Polynomial K → Polynomial K → Except (Failure K) (Polynomial K))
    (hform : ofTree (.binary op left right) =
      ofTree left >>= fun first => ofTree right >>= fun second => combine first second)
    (hpoly : Polynomial.ofTree unknown (.binary op left right) =
      Polynomial.ofTree unknown left >>= fun p => Polynomial.ofTree unknown right >>= fun q =>
        combine' p q)
    (hmatches : ∀ first p second q, Matches unknown first p → Matches unknown second q →
      (∃ form r, combine first second = .ok form ∧ combine' p q = .ok r ∧ Matches unknown form r) ∨
      ((∃ failure, combine first second = .error failure) ∧
        ∀ r, combine' p q = .ok r → ∃ n ∈ r.keys, 2 ≤ n))
    (hlarge : ∀ p q r, combine' p q = .ok r → (∃ m, m ∈ p.keys) → (∃ n, n ∈ q.keys) →
      ((∃ m ∈ p.keys, 2 ≤ m) ∨ ∃ n ∈ q.keys, 2 ≤ n) → ∃ n ∈ r.keys, 2 ≤ n)
    (hl : Decomposes unknown left) (hr : Decomposes unknown right) :
    Decomposes unknown (.binary op left right) := by
  by_cases hboth : (∃ first p, ofTree left = .ok first ∧ Polynomial.ofTree unknown left = .ok p ∧
      Matches unknown first p) ∧ ∃ second q, ofTree right = .ok second ∧
      Polynomial.ofTree unknown right = .ok q ∧ Matches unknown second q
  · obtain ⟨⟨first, p, hfirst, hp, hfirstp⟩, second, q, hsecond, hq, hsecondq⟩ := hboth
    rw [Decomposes, hform, hpoly, hfirst, hp, ok_bind, ok_bind, hsecond, hq, ok_bind, ok_bind]
    exact hmatches first p second q hfirstp hsecondq
  · -- one of the parts was refused, so its polynomial is too large
    right
    constructor
    · rw [hform]
      rcases hl with hl | ⟨⟨failure, hfailure⟩, -⟩
      · rcases hr with hr | ⟨⟨failure, hfailure⟩, -⟩
        · exact absurd ⟨hl, hr⟩ hboth
        · obtain ⟨first, p, hfirst, -⟩ := hl
          rw [hfirst, ok_bind, hfailure]
          exact ⟨failure, rfl⟩
      · rw [hfailure]
        exact ⟨failure, rfl⟩
    · intro r hproduct
      rw [hpoly, bind_eq_ok] at hproduct
      obtain ⟨p, hp, hproduct⟩ := hproduct
      obtain ⟨q, hq, hproduct⟩ := bind_eq_ok.1 hproduct
      apply hlarge p q r hproduct (hl.exists_exponent hp) (hr.exists_exponent hq)
      rcases hl with hl | ⟨-, hl⟩
      · rcases hr with hr | ⟨-, hr⟩
        · exact absurd ⟨hl, hr⟩ hboth
        · exact .inr (hr q hq)
      · exact .inl (hl p hp)

/-- A sum of one part and a multiple of the other. -/
theorem Decomposes.sum {op : Operator} (sign : K) (sum : Polynomial K → Polynomial K → Polynomial K)
    (hform : ofTree (.binary op left right) =
      ofTree left >>= fun first => ofTree right >>= fun second => .ok (first.addScaled sign second))
    (hpoly : Polynomial.ofTree unknown (.binary op left right) =
      Polynomial.ofTree unknown left >>= fun p => Polynomial.ofTree unknown right >>= fun q =>
        .ok (sum p q))
    (hkeys : ∀ p q n, n ∈ (sum p q).keys ↔ n ∈ p.keys ∨ n ∈ q.keys)
    (hcoefficient : ∀ p q n,
      (sum p q).coefficient n = p.coefficient n + sign * q.coefficient n)
    (hl : Decomposes unknown left) (hr : Decomposes unknown right) :
    Decomposes unknown (.binary op left right) := by
  refine Decomposes.binary (fun first second => .ok (first.addScaled sign second))
    (fun p q => .ok (sum p q)) hform hpoly ?_ ?_ hl hr
  · intro first p second q hp hq
    exact .inl ⟨_, _, rfl, rfl, hp.addScaled hq (hkeys p q) (hcoefficient p q)⟩
  · intro p q r hsum _ _ hlarge
    obtain rfl : sum p q = r := Except.ok.inj hsum
    simp only [hkeys]
    rcases hlarge with ⟨n, hn, hle⟩ | ⟨n, hn, hle⟩
    · exact ⟨n, .inl hn, hle⟩
    · exact ⟨n, .inr hn, hle⟩

theorem Decomposes.plus (hl : Decomposes unknown left) (hr : Decomposes unknown right) :
    Decomposes unknown (.binary .plus left right) := by
  refine Decomposes.sum 1 (fun p q => p.add q) rfl rfl ?_ ?_ hl hr
  · intro p q n
    exact FormalSum.mem_keys_add
  · intro p q n
    rw [FormalSum.coefficient_add, one_mul]

theorem Decomposes.minus (hl : Decomposes unknown left) (hr : Decomposes unknown right) :
    Decomposes unknown (.binary .minus left right) := by
  refine Decomposes.sum (-1) (fun p q => p.add q.negate) rfl rfl ?_ ?_ hl hr
  · intro p q n
    rw [FormalSum.mem_keys_add, Polynomial.negate, FormalSum.keys_mapCoefficients]
  · intro p q n
    rw [FormalSum.coefficient_add, Polynomial.negate, FormalSum.coefficient_mapCoefficients_neg,
      neg_one_mul]

omit [DecidableEq K] [Whole K] in
/-- How two linear forms are multiplied: one of them has to be constant. -/
theorem ofTree_times_eq : ofTree (.binary .times left right) =
    ofTree left >>= fun first => ofTree right >>= fun second =>
      if first.isConstant then .ok (second.scale first.constant)
      else if second.isConstant then .ok (first.scale second.constant)
      else .error (.notLinear (.binary .times left right)) := rfl

theorem Decomposes.times (hl : Decomposes unknown left) (hr : Decomposes unknown right) :
    Decomposes unknown (.binary .times left right) := by
  refine Decomposes.binary _ (fun p q => p.multiply q) ofTree_times_eq rfl ?_ ?_ hl hr
  · intro first p second q hp hq
    obtain ⟨r, hr⟩ := hp.exists_multiply hq
    have hproduct := Polynomial.isProduct_of_multiply hr
    by_cases hfirst : first.isConstant = true
    · rw [if_pos hfirst]
      exact .inl ⟨_, r, rfl, hr, hp.scale hq hfirst hproduct⟩
    · rw [if_neg hfirst]
      by_cases hsecond : second.isConstant = true
      · rw [if_pos hsecond]
        exact .inl ⟨_, r, rfl, hr, hq.scale hp hsecond hproduct.symm⟩
      · -- the name is in both factors, so its square is in the product
        rw [if_neg hsecond]
        refine .inr ⟨⟨_, rfl⟩, fun r' hr' => ?_⟩
        have hone : 1 ∈ p.keys := not_not.1 fun h => hfirst (hp.isConstant_iff.2 h)
        have hone' : 1 ∈ q.keys := not_not.1 fun h => hsecond (hq.isConstant_iff.2 h)
        exact ⟨2, ((Polynomial.multiply_eq_ok hr').2 2).2 ⟨1, hone, 1, hone', rfl⟩, le_rfl⟩
  · intro p q r hr hp hq hlarge
    have hkeys := (Polynomial.multiply_eq_ok hr).2
    rcases hlarge with ⟨m, hm, hle⟩ | ⟨n, hn, hle⟩
    · obtain ⟨n, hn⟩ := hq
      exact ⟨m + n, (hkeys _).2 ⟨m, hm, n, hn, rfl⟩, by omega⟩
    · obtain ⟨m, hm⟩ := hp
      exact ⟨m + n, (hkeys _).2 ⟨m, hm, n, hn, rfl⟩, by omega⟩

/-- Every tree without powers and with no name but `unknown` decomposes. -/
theorem decomposes (hpower : t.IsPowerFree) (hnames : ∀ name ∈ t.names, name = unknown) :
    Decomposes unknown t := by
  induction t with
  | const value => exact .inl ⟨_, _, rfl, rfl, matches_constant value⟩
  | var name =>
    obtain rfl : name = unknown := hnames name (List.mem_singleton_self name)
    exact .inl ⟨_, Polynomial.identity, rfl, if_pos rfl, matches_name⟩
  | neg operand ih => exact (ih hpower hnames).neg
  | binary op left right ihl ihr =>
    obtain ⟨hop, hleft, hright⟩ := hpower
    have hl := ihl hleft fun name hname => hnames name (List.mem_append_left _ hname)
    have hr := ihr hright fun name hname => hnames name (List.mem_append_right _ hname)
    cases op with
    | plus => exact hl.plus hr
    | minus => exact hl.minus hr
    | times => exact hl.times hr
    | «over» =>
      -- neither decomposition divides
      exact .inr ⟨⟨_, rfl⟩, nofun⟩
    | power => exact absurd rfl hop

omit [DecidableEq K] [Whole K] [CommRing K] in
/-- A polynomial with an exponent has a degree, and it is at most one if all exponents are. -/
theorem exists_degree?_le_one (hexponent : ∃ n, n ∈ p.keys) (hle : ∀ n ∈ p.keys, n ≤ 1) :
    ∃ degree ≤ 1, p.degree? = some degree := by
  cases hdegree : p.degree? with
  | none =>
    obtain ⟨n, hn⟩ := hexponent
    have hnil : p.keys = [] := List.getLast?_eq_none_iff.1 hdegree
    rw [hnil] at hn
    cases hn
  | some degree => exact ⟨degree, hle degree (List.mem_of_getLast? hdegree), rfl⟩

/-- A tree without powers in one name has a linear form exactly if it has a polynomial of degree at
most one. The coefficients of the two are then the same. -/
theorem ofTree_iff_degree_le_one (hpower : t.IsPowerFree)
    (hnames : ∀ name ∈ t.names, name = unknown) :
    ((∃ form, ofTree t = .ok form) ↔
      ∃ p, Polynomial.ofTree unknown t = .ok p ∧ ∃ degree ≤ 1, p.degree? = some degree) ∧
    ∀ form p, ofTree t = .ok form → Polynomial.ofTree unknown t = .ok p →
      form.coefficients.coefficient unknown = p.coefficient 1 ∧
        form.constant = p.coefficient 0 := by
  rcases decomposes hpower hnames with ⟨form, p, hform, hp, hmatches⟩ | ⟨⟨failure, hform⟩, hlarge⟩
  · refine ⟨iff_of_true ⟨form, hform⟩ ⟨p, hp, ?_⟩, ?_⟩
    · exact exists_degree?_le_one hmatches.exists_exponent hmatches.le_one
    · intro form' p' hform' hp'
      obtain rfl : form = form' := Except.ok.inj (hform.symm.trans hform')
      obtain rfl : p = p' := Except.ok.inj (hp.symm.trans hp')
      exact ⟨hmatches.coefficient, hmatches.constant⟩
  · refine ⟨iff_of_false ?_ ?_, ?_⟩
    · rintro ⟨form, hok⟩
      rw [hform] at hok
      cases hok
    · rintro ⟨p, hp, degree, hdegree, hlast⟩
      obtain ⟨n, hn, hle⟩ := hlarge p hp
      have hn := Polynomial.le_of_degree? hlast n hn
      omega
    · intro form p hok
      rw [hform] at hok
      cases hok

/-- A coefficient that has cancelled still counts: `(v - v)·2 + v` is linear in both ways and
`(v - v)·v` in neither. -/
theorem ofTree_iff_degree_le_one_cancelled :
    let v : Tree ℝ := .var "v"
    let vanishing : Tree ℝ := .binary .minus v v
    let linear : Tree ℝ := .binary .plus (.binary .times vanishing (.const 2)) v
    let square : Tree ℝ := .binary .times vanishing v
    (∃ form p, ofTree linear = .ok form ∧ Polynomial.ofTree "v" linear = .ok p ∧
      form.coefficients.coefficient "v" = p.coefficient 1 ∧ form.constant = p.coefficient 0) ∧
    (∃ failure, ofTree square = .error failure) ∧
      ¬ ∃ p, Polynomial.ofTree "v" square = .ok p ∧ ∃ degree ≤ 1, p.degree? = some degree := by
  intro v vanishing linear square
  have hlinear : ∃ form, ofTree linear = .ok form := ⟨_, rfl⟩
  have hsquare : ∃ failure, ofTree square = .error failure := ⟨_, rfl⟩
  have hnames : (∀ name ∈ linear.names, name = "v") ∧ ∀ name ∈ square.names, name = "v" := by
    simp [linear, square, vanishing, v, Tree.names]
  have hpower : linear.IsPowerFree ∧ square.IsPowerFree := by
    simp [linear, square, vanishing, v, Tree.IsPowerFree]
  obtain ⟨hiff, heq⟩ := ofTree_iff_degree_le_one hpower.1 hnames.1
  obtain ⟨hiff', -⟩ := ofTree_iff_degree_le_one hpower.2 hnames.2
  obtain ⟨form, hform⟩ := hlinear
  obtain ⟨p, hp, -⟩ := hiff.1 ⟨form, hform⟩
  refine ⟨⟨form, p, hform, hp, heq form p hform hp⟩, hsquare, ?_⟩
  rw [← hiff']
  rintro ⟨form, hok⟩
  obtain ⟨failure, hfailure⟩ := hsquare
  rw [hok] at hfailure
  cases hfailure

end LinearForm

end SchoolMath
