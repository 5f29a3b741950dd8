import SchoolMath.Proofs.Polynomial.Dense
import SchoolMath.Proofs.Polynomial.Shown

/-!
# `Polynomial.Support` — the exponents of the polynomial of a tree

Terms that cancel stay in a polynomial with the coefficient zero. So the exponents of the polynomial
of a tree can be read off the tree, without knowing any coefficient (`Tree.support`): those of a sum
are the ones of both summands, those of a product the sums of the ones of its factors. In the same way
the tree tells whether it can be expanded: it cannot exactly if somewhere in it the degrees of two
factors are together out of range (`Tree.ExceedsRange`).

The proof is an induction on the tree. It carries that the polynomial has the exponents of the
support; the largest of them decide whether a product exists. The squares that a power computes need
no attention, since none has a larger exponent than the result (`Polynomial.Monomial`). The main
statement is `ofTree_exponents`.
-/

namespace SchoolMath

variable {K : Type}

namespace Tree

/-! ## What a tree says about exponents -/

/-- The tree and the trees in it. -/
def subtrees : Tree K → List (Tree K)
  | .const value => [.const value]
  | .var name => [.var name]
  | .neg operand => .neg operand :: operand.subtrees
  | .binary op left right => .binary op left right :: (left.subtrees ++ right.subtrees)

variable [Whole K]

/-- Trees of constants, the name `unknown` and its powers with whole exponents, put together by signs,
sums, differences and products. -/
inductive IsPolynomialIn (unknown : String) : Tree K → Prop
  | const (value : K) : IsPolynomialIn unknown (.const value)
  | var : IsPolynomialIn unknown (.var unknown)
  | power {c : K} {n : Nat} : Whole.toNat? c = some n → n ≤ exponentLimit →
      IsPolynomialIn unknown (.binary .power (.var unknown) (.const c))
  | neg {operand : Tree K} :
      IsPolynomialIn unknown operand → IsPolynomialIn unknown (.neg operand)
  | plus {left right : Tree K} : IsPolynomialIn unknown left → IsPolynomialIn unknown right →
      IsPolynomialIn unknown (.binary .plus left right)
  | minus {left right : Tree K} : IsPolynomialIn unknown left → IsPolynomialIn unknown right →
      IsPolynomialIn unknown (.binary .minus left right)
  | times {left right : Tree K} : IsPolynomialIn unknown left → IsPolynomialIn unknown right →
      IsPolynomialIn unknown (.binary .times left right)

/-- The exponents that a tree has as it is written, whatever its constants are. -/
def support : Tree K → Finset Nat
  | .const _ => {0}
  | .var _ => {1}
  | .neg operand => operand.support
  | .binary .plus left right => left.support ∪ right.support
  | .binary .minus left right => left.support ∪ right.support
  | .binary .times left right => Finset.image₂ (· + ·) left.support right.support
  | .binary .power _ exponent => exponent.exponent?.elim ∅ fun n => {n}
  | .binary .over _ _ => ∅

/-- The degree that a tree has as it is written. -/
def formalDegree (t : Tree K) : Nat := t.support.sup id

/-- In a product somewhere in the tree the degrees of the factors are together out of range. -/
def ExceedsRange (t : Tree K) : Prop :=
  ∃ left right, .binary .times left right ∈ t.subtrees ∧
    exponentLimit < left.formalDegree + right.formalDegree

variable {unknown : String} {t : Tree K}

theorem support_power (base : Tree K) {c : K} {n : Nat} (hc : Whole.toNat? c = some n)
    (hn : n ≤ exponentLimit) : (Tree.binary .power base (.const c)).support = {n} := by
  rw [support, exponent?_const hc hn]
  rfl

theorem mem_support_times {left right : Tree K} {n : Nat} :
    n ∈ (Tree.binary .times left right).support ↔
      ∃ i ∈ left.support, ∃ j ∈ right.support, i + j = n := Finset.mem_image₂

/-- No exponent is larger than the degree. -/
theorem le_formalDegree {n : Nat} (h : n ∈ t.support) : n ≤ t.formalDegree := by
  show id n ≤ t.support.sup id
  exact Finset.le_sup h

/-- Every tree of this kind has an exponent. -/
theorem IsPolynomialIn.support_nonempty (h : t.IsPolynomialIn unknown) : t.support.Nonempty := by
  induction h with
  | const | var => exact Finset.singleton_nonempty _
  | power hc hn =>
    rw [support_power _ hc hn]
    exact Finset.singleton_nonempty _
  | neg _ ih => exact ih
  | plus _ _ ihl _ | minus _ _ ihl _ => exact ihl.mono Finset.subset_union_left
  | times _ _ ihl ihr => exact Finset.Nonempty.image₂ ihl ihr

/-- The degree is one of the exponents. -/
theorem IsPolynomialIn.formalDegree_mem (h : t.IsPolynomialIn unknown) :
    t.formalDegree ∈ t.support := by
  obtain ⟨n, hn, heq⟩ := Finset.exists_mem_eq_sup t.support h.support_nonempty id
  have hdegree : t.formalDegree = n := heq
  rwa [hdegree]

theorem exceedsRange_neg : (Tree.neg t).ExceedsRange ↔ t.ExceedsRange := by
  simp [ExceedsRange, subtrees]

/-- A tree exceeds the range at its root or in one of its two parts. -/
theorem exceedsRange_binary {op : Operator} {left right : Tree K} :
    (Tree.binary op left right).ExceedsRange ↔
      (op = .times ∧ exponentLimit < left.formalDegree + right.formalDegree) ∨
        left.ExceedsRange ∨ right.ExceedsRange := by
  unfold ExceedsRange
  simp only [subtrees, List.mem_cons, List.mem_append, Tree.binary.injEq]
  constructor
  · rintro ⟨l, r, ⟨hop, rfl, rfl⟩ | hl | hr, hrange⟩
    · exact .inl ⟨hop.symm, hrange⟩
    · exact .inr (.inl ⟨l, r, hl, hrange⟩)
    · exact .inr (.inr ⟨l, r, hr, hrange⟩)
  · rintro (⟨rfl, hrange⟩ | ⟨l, r, hl, hrange⟩ | ⟨l, r, hr, hrange⟩)
    · exact ⟨left, right, .inl ⟨rfl, rfl, rfl⟩, hrange⟩
    · exact ⟨l, r, .inr (.inl hl), hrange⟩
    · exact ⟨l, r, .inr (.inr hr), hrange⟩

theorem not_exceedsRange_const (c : K) : ¬ (Tree.const c).ExceedsRange := by
  simp [ExceedsRange, subtrees]

theorem not_exceedsRange_var (name : String) : ¬ (Tree.var (K := K) name).ExceedsRange := by
  simp [ExceedsRange, subtrees]

end Tree

namespace Polynomial

open FormalSum

/-! ## Expanding a tree -/

section Expand

variable [Zero K] [One K] [Add K] [Mul K] [Neg K] [BEq K] [Whole K] {unknown : String}
  {t left right : Tree K} {p q : Polynomial K}

/-- The polynomial has the exponents that the tree writes. -/
def HasSupport (p : Polynomial K) (t : Tree K) : Prop := ∀ n, n ∈ p.keys ↔ n ∈ t.support

omit [One K] [Mul K] [Neg K] [BEq K] in
theorem hasSupport_constant (c : K) : HasSupport (constant c) (.const c) := by
  intro n
  rw [constant, mem_keys_ofTerms]
  simp [Tree.support]

omit [Zero K] [One K] [Add K] [Mul K] [Neg K] [BEq K] in
theorem hasSupport_single {n : Nat} (c : K) (h : t.support = {n}) : HasSupport (single n c) t := by
  intro k
  rw [h]
  simp [keys, single]

omit [One K] [Mul K] [Neg K] [BEq K] in
/-- The exponents of a sum are those of the summands. -/
theorem HasSupport.add (hp : HasSupport p left) (hq : HasSupport q right)
    (h : t.support = left.support ∪ right.support) : HasSupport (FormalSum.add p q) t := by
  intro n
  rw [mem_keys_add, hp n, hq n, h, Finset.mem_union]

omit [Zero K] [One K] [Add K] [Mul K] [BEq K] in
theorem HasSupport.negate (hp : HasSupport p t) : HasSupport p.negate t := by
  intro n
  rw [Polynomial.negate, keys_mapCoefficients]
  exact hp n

/-- A tree that exceeds the range has no polynomial because two exponents are too large together; any
other has one, with the exponents that the tree writes. -/
def Expands (unknown : String) (t : Tree K) : Prop :=
  (¬ t.ExceedsRange ∧ ∃ p, ofTree unknown t = .ok p ∧ HasSupport p t) ∨
  (t.ExceedsRange ∧ ∃ m n, exponentLimit < m + n ∧ ofTree unknown t = .error (.exponentRange m n))

/-- An operation expands if both parts do and their polynomials can be combined; only a product of
polynomials may fail, and only by its degree. -/
theorem Expands.binary {op : Operator}
    (combine : Polynomial K → Polynomial K → Except (Failure K) (Polynomial K))
    (heq : ofTree unknown (.binary op left right) =
      ofTree unknown left >>= fun p => ofTree unknown right >>= fun q => combine p q)
    (hcombine : ∀ p q, HasSupport p left → HasSupport q right →
      (¬ (op = .times ∧ exponentLimit < left.formalDegree + right.formalDegree) ∧
        ∃ r, combine p q = .ok r ∧ HasSupport r (.binary op left right)) ∨
      (op = .times ∧ exponentLimit < left.formalDegree + right.formalDegree) ∧
        ∃ m n, exponentLimit < m + n ∧ combine p q = .error (.exponentRange m n))
    (hl : Expands unknown left) (hr : Expands unknown right) :
    Expands unknown (.binary op left right) := by
  unfold Expands
  rw [heq, Tree.exceedsRange_binary]
  rcases hl with ⟨hleft, p, hp, hpleft⟩ | ⟨hleft, m, n, hrange, hp⟩
  · rcases hr with ⟨hright, q, hq, hqright⟩ | ⟨hright, m, n, hrange, hq⟩
    · rw [hp, ok_bind, hq, ok_bind]
      rcases hcombine p q hpleft hqright with ⟨hroot, hfound⟩ | ⟨hroot, hfail⟩
      · exact .inl ⟨not_or.2 ⟨hroot, not_or.2 ⟨hleft, hright⟩⟩, hfound⟩
      · exact .inr ⟨.inl hroot, hfail⟩
    · refine .inr ⟨.inr (.inr hright), m, n, hrange, ?_⟩
      rw [hp, ok_bind, hq]
      rfl
  · refine .inr ⟨.inr (.inl hleft), m, n, hrange, ?_⟩
    rw [hp]
    rfl

/-- A sum has the exponents of both summands. -/
theorem Expands.plus (hl : Expands unknown left) (hr : Expands unknown right) :
    Expands unknown (.binary .plus left right) := by
  apply Expands.binary (fun p q => .ok (FormalSum.add p q)) rfl _ hl hr
  intro p q hp hq
  exact .inl ⟨nofun, _, rfl, hp.add hq rfl⟩

/-- A difference has the exponents of both sides. -/
theorem Expands.minus (hl : Expands unknown left) (hr : Expands unknown right) :
    Expands unknown (.binary .minus left right) := by
  apply Expands.binary (fun p q => .ok (FormalSum.add p q.negate)) rfl _ hl hr
  intro p q hp hq
  exact .inl ⟨nofun, _, rfl, hp.add hq.negate rfl⟩

/-- A product has the sums of exponents, unless the largest one is out of range. -/
theorem Expands.times (hleft : left.IsPolynomialIn unknown) (hright : right.IsPolynomialIn unknown)
    (hl : Expands unknown left) (hr : Expands unknown right) :
    Expands unknown (.binary .times left right) := by
  apply Expands.binary (fun p q => p.multiply q) rfl _ hl hr
  intro p q hp hq
  cases hproduct : p.multiply q with
  | ok r =>
    obtain ⟨hrange, hkeys⟩ := multiply_eq_ok hproduct
    have hdegrees : left.formalDegree + right.formalDegree ≤ exponentLimit := by
      apply hrange
      · exact (hp _).2 hleft.formalDegree_mem
      · exact (hq _).2 hright.formalDegree_mem
    refine .inl ⟨fun h => absurd h.2 (not_lt.2 hdegrees), r, rfl, ?_⟩
    intro n
    rw [hkeys, Tree.mem_support_times]
    simp only [hp _, hq _]
  | error failure =>
    obtain ⟨m, hm, n, hn, hrange, rfl⟩ := multiply_eq_error hproduct
    have hmle : m ≤ left.formalDegree := Tree.le_formalDegree ((hp m).1 hm)
    have hnle : n ≤ right.formalDegree := Tree.le_formalDegree ((hq n).1 hn)
    exact .inr ⟨⟨rfl, by omega⟩, m, n, hrange, rfl⟩

/-- A sign changes neither the exponents nor the failure. -/
theorem Expands.neg (h : Expands unknown t) : Expands unknown (.neg t) := by
  have heq : ofTree unknown (.neg t) = ofTree unknown t >>= fun p => .ok p.negate := rfl
  unfold Expands
  rw [heq, Tree.exceedsRange_neg]
  rcases h with ⟨hrange, p, hp, hsupport⟩ | ⟨hexceeds, m, n, hrange, hp⟩
  · exact .inl ⟨hrange, p.negate, by rw [hp, ok_bind], hsupport.negate⟩
  · refine .inr ⟨hexceeds, m, n, hrange, ?_⟩
    rw [hp]
    rfl

/-- The tree tells the exponents of its polynomial, and whether there is one. Of the numbers it is
asked only that one is recognised as itself. -/
theorem expands (hone : 0 + (1 : K) = 1) (hsquare : (1 : K) * 1 = 1)
    (hbeq : ((1 : K) == 1) = true) (ht : t.IsPolynomialIn unknown) : Expands unknown t := by
  induction ht with
  | const value =>
    exact .inl ⟨Tree.not_exceedsRange_const value, constant value, rfl, hasSupport_constant value⟩
  | var =>
    refine .inl ⟨Tree.not_exceedsRange_var unknown, single 1 1, ofTree_unknown hone, ?_⟩
    exact hasSupport_single 1 rfl
  | power hc hn =>
    refine .inl ⟨?_, single _ 1, ofTree_power_of_unknown hone hsquare hbeq hc hn, ?_⟩
    · rw [Tree.exceedsRange_binary]
      simp [Tree.not_exceedsRange_const, Tree.not_exceedsRange_var]
    · exact hasSupport_single 1 (Tree.support_power _ hc hn)
  | neg _ ih => exact ih.neg
  | plus _ _ ihl ihr => exact ihl.plus ihr
  | minus _ _ ihl ihr => exact ihl.minus ihr
  | times hl hr ihl ihr => exact .times hl hr ihl ihr

omit [Zero K] [One K] [Add K] [Mul K] [Neg K] [BEq K] in
/-- The degree of the polynomial is the degree that the tree writes. -/
theorem HasSupport.degree?_eq (hp : HasSupport p t) (ht : t.IsPolynomialIn unknown) :
    p.degree? = some t.formalDegree := by
  have hmem : t.formalDegree ∈ p.keys := (hp _).2 ht.formalDegree_mem
  cases hdegree : p.degree? with
  | none =>
    have hnil : p.keys = [] := List.getLast?_eq_none_iff.1 hdegree
    rw [hnil] at hmem
    cases hmem
  | some degree =>
    have hkey : degree ∈ p.keys := List.mem_of_getLast? hdegree
    have hle : degree ≤ t.formalDegree := Tree.le_formalDegree ((hp _).1 hkey)
    have hge : t.formalDegree ≤ degree := le_of_degree? hdegree _ hmem
    rw [Nat.le_antisymm hle hge]

end Expand

/-- With doubles as constants, expanding a tree fails exactly if the degrees of two factors somewhere
in it are together out of range, and it says so; otherwise the polynomial has the exponents that the
tree writes, and with them its degree, whichever coefficients are zero. -/
theorem ofTree_exponents {unknown : String} {t : Tree Float} (ht : t.IsPolynomialIn unknown) :
    ((∃ failure, ofTree unknown t = .error failure) ↔ t.ExceedsRange) ∧
    (∀ failure, ofTree unknown t = .error failure → ∃ m n, exponentLimit < m + n ∧
      failure = .exponentRange m n ∧
        failure.message = unsupportedMessage s!"exponent {m} + {n} is out of range") ∧
    ∀ p, ofTree unknown t = .ok p →
      (∀ n, n ∈ p.keys ↔ n ∈ t.support) ∧ p.degree? = some t.formalDegree := by
  have hbeq : ((1 : Float) == 1) = true := exactIntegers_double.beq_one 1 (by decide)
  rcases expands (zero_add_one exactIntegers_double) (one_mul_one exactIntegers_double) hbeq ht with
    ⟨hrange, p, hp, hsupport⟩ | ⟨hexceeds, m, n, hrange, hp⟩
  · rw [hp]
    refine ⟨iff_of_false (by simp) hrange, nofun, ?_⟩
    intro q hq
    obtain rfl := Except.ok.inj hq
    exact ⟨hsupport, hsupport.degree?_eq ht⟩
  · rw [hp]
    refine ⟨iff_of_true ⟨_, rfl⟩ hexceeds, ?_, nofun⟩
    intro failure hfailure
    obtain rfl := Except.error.inj hfailure
    exact ⟨m, n, hrange, rfl, rfl⟩

/-- A difference of equal powers keeps the exponent of the powers. So it has the degree 2 if they are
squares, and its product with the variable is out of range if they have the largest exponent. -/
theorem ofTree_exponents_cancelled :
    let power (n : Nat) : Tree Float := .binary .power (.var "x") (.const (n : Float))
    let vanishing (n : Nat) : Tree Float := .binary .minus (power n) (power n)
    let outOfRange : Tree Float := .binary .times (vanishing exponentLimit) (.var "x")
    ((vanishing 2).IsPolynomialIn "x" ∧
      ∃ p, ofTree "x" (vanishing 2) = .ok p ∧ (∀ n, n ∈ p.keys ↔ n = 2) ∧ p.degree? = some 2) ∧
    outOfRange.IsPolynomialIn "x" ∧ ∃ m n, ofTree "x" outOfRange = .error (.exponentRange m n) := by
  intro power vanishing outOfRange
  have hwhole : ∀ n ≤ exponentLimit, Whole.toNat? (n : Float) = some n :=
    fun n hn => exactIntegers_double.toNat?_natCast n (lt_of_le_of_lt hn exponentLimit_lt)
  have hpower : ∀ n ≤ exponentLimit, (vanishing n).IsPolynomialIn "x" :=
    fun n hn => .minus (.power (hwhole n hn) hn) (.power (hwhole n hn) hn)
  have hsupport : ∀ n ≤ exponentLimit, (vanishing n).support = {n} := by
    intro n hn
    show (power n).support ∪ (power n).support = {n}
    rw [Tree.support_power _ (hwhole n hn) hn, Finset.union_self]
  have hdegree : ∀ n ≤ exponentLimit, (vanishing n).formalDegree = n := by
    intro n hn
    rw [Tree.formalDegree, hsupport n hn, Finset.sup_singleton, id_eq]
  have hproduct : outOfRange.IsPolynomialIn "x" := .times (hpower _ le_rfl) .var
  refine ⟨⟨hpower 2 (by decide), ?_⟩, hproduct, ?_⟩
  · obtain ⟨hfails, -, hexponents⟩ := ofTree_exponents (hpower 2 (by decide))
    have hrange : ¬ (vanishing 2).ExceedsRange := by
      simp [vanishing, power, Tree.exceedsRange_binary, Tree.not_exceedsRange_const,
        Tree.not_exceedsRange_var]
    cases hp : ofTree "x" (vanishing 2) with
    | error failure => exact absurd (hfails.1 ⟨failure, hp⟩) hrange
    | ok p =>
      obtain ⟨hkeys, hp⟩ := hexponents p hp
      rw [hdegree 2 (by decide)] at hp
      refine ⟨p, rfl, ?_, hp⟩
      intro n
      rw [hkeys, hsupport 2 (by decide), Finset.mem_singleton]
  · obtain ⟨hfails, hfailure, -⟩ := ofTree_exponents hproduct
    have hvar : (Tree.var (K := Float) "x").formalDegree = 1 := rfl
    have hexceeds : outOfRange.ExceedsRange := by
      refine Tree.exceedsRange_binary.2 (.inl ⟨rfl, ?_⟩)
      rw [hdegree _ le_rfl, hvar]
      exact Nat.lt_succ_self _
    obtain ⟨failure, h⟩ := hfails.2 hexceeds
    obtain ⟨m, n, -, rfl, -⟩ := hfailure failure h
    exact ⟨m, n, h⟩

end Polynomial

end SchoolMath
