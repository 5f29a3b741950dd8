import SchoolMath.Proofs.Arithmetic.Spelling
import SchoolMath.Proofs.Polynomial.Monomial

/-!
# `Polynomial.Shown` — the terms that a text shows, and their polynomial

A text of a polynomial shows terms with a sign and a magnitude (`Shown`), the highest power first. Of
their tokens a sum is derived, and the polynomial of its tree has just these terms. The minus in front
of the first term belongs to its first factor, whatever that is; one behind a term makes a
difference. A term of its own gives a polynomial with one term (`means_term`), and since exponents
descend each further term is put in front of those before it (`means_sum`).

How exponents are written is left open: with digits alone, or in parentheses.
-/

namespace SchoolMath.Polynomial

open Arithmetic

/-- A term that is shown. -/
structure Shown where
  exponent : Nat
  negative : Bool
  magnitude : Nat

namespace Shown

/-- The exponent is in range, and the coefficient is exact and not zero. -/
structure InRange (s : Shown) : Prop where
  exponent_le : s.exponent ≤ exponentLimit
  pos : 0 < s.magnitude
  magnitude_lt : s.magnitude < integerLimit

/-! ## Tokens -/

/-- The minus in front of the first term. -/
def signTokens (negative : Bool) : List Token := if negative then [.operator .minus] else []

variable (exponentTokens : Nat → List Token) (w : List Char)

/-- The tokens of a power of the name. -/
def powerTokens (n : Nat) : List Token :=
  if n = 1 then [.word w] else .word w :: .operator .power :: exponentTokens n

/-- The tokens of a term without its sign. -/
def bodyTokens (s : Shown) : List Token :=
  if s.exponent = 0 then [.number (Decimal.digits s.magnitude)]
  else if s.magnitude = 1 then powerTokens exponentTokens w s.exponent
  else .number (Decimal.digits s.magnitude) :: .operator .times ::
    powerTokens exponentTokens w s.exponent

/-- The tokens of a term behind another. -/
def linkTokens (s : Shown) : List Token :=
  .operator (if s.negative then .minus else .plus) :: bodyTokens exponentTokens w s

/-- The tokens of a sum; without terms it is zero. -/
def sumTokens : List Shown → List Token
  | [] => [.number (Decimal.digits 0)]
  | s :: ss => signTokens s.negative ++ bodyTokens exponentTokens w s ++
      ss.flatMap (linkTokens exponentTokens w)

end Shown

/-! ## Meanings -/

variable {K : Type} [Zero K] [One K] [Add K] [Mul K] [Neg K] [BEq K] [LT K] [NatCast K]
  [Numeral K] [Whole K]

/-- The integer with a sign and a magnitude. -/
def signed (negative : Bool) (m : Nat) : K := if negative then -(m : K) else m

/-- The term of a polynomial. -/
def Shown.term (s : Shown) : Nat × K := (s.exponent, signed s.negative s.magnitude)

/-- A tree is derived of the tokens that has the polynomial in the name `w`. -/
def Means (w : List Char) (level : Level) (ts : List Token) (p : Polynomial K) : Prop :=
  ∃ t, Derives level ts t ∧ ofTree (String.ofList w) t = .ok p

/-- Tokens that write exponents. -/
def WritesExponents (K : Type) [NatCast K] [Numeral K] (exponentTokens : Nat → List Token) : Prop :=
  ∀ n ≤ exponentLimit, Derives .unary (exponentTokens n) (.const (n : K))

section Means

variable {exponentTokens : Nat → List Token} {w : List Char}

/-- Adding an integer other than zero to zero changes nothing. -/
theorem zero_add_signed (h : ExactIntegers K) (negative : Bool) {m : Nat} (hpos : 0 < m)
    (hm : m < integerLimit) : (0 : K) + signed negative m = signed negative m := by
  cases negative with
  | false => exact h.zero_add m hm
  | true => exact h.zero_add_neg m hm hpos

theorem signed_mul_one (h : ExactIntegers K) (negative : Bool) {m : Nat}
    (hm : m < integerLimit) : (signed negative m : K) * 1 = signed negative m := by
  cases negative with
  | false => exact h.mul_one m hm
  | true => exact h.neg_mul_one m hm

/-- One is exact. -/
theorem zero_add_one (h : ExactIntegers K) : 0 + (1 : K) = 1 := by
  have hone := h.zero_add 1 (by decide)
  rwa [h.natCast_one] at hone

theorem one_mul_one (h : ExactIntegers K) : (1 : K) * 1 = 1 := by
  have hone := h.mul_one 1 (by decide)
  rwa [h.natCast_one] at hone

/-- Digits mean a constant. -/
theorem means_digits (h : ExactIntegers K) {m : Nat} (hm : m < integerLimit) :
    Means w .power [.number (Decimal.digits m)] (single 0 (m : K)) := by
  refine ⟨_, .ofAtom (.number _), ?_⟩
  rw [h.read_digits m hm]
  exact congrArg Except.ok (constant_eq_single (h.zero_add m hm))

/-- A power of the name means a term with the coefficient one. -/
theorem means_power (h : ExactIntegers K) (hE : WritesExponents K exponentTokens)
    (hw : w ∉ Surface.keywords) {n : Nat} (hn : n ≤ exponentLimit) :
    Means w .power (Shown.powerTokens exponentTokens w n) (single n (1 : K)) := by
  have hone : (((1 : Nat) : K) == 1) = true := h.beq_one 1 (by decide)
  rw [h.natCast_one] at hone
  unfold Shown.powerTokens
  split
  · next heq => exact ⟨_, .ofAtom (.name hw), heq ▸ ofTree_unknown (zero_add_one h)⟩
  · refine ⟨_, .power (.name hw) (hE n hn), ?_⟩
    exact ofTree_power_of_unknown (zero_add_one h) (one_mul_one h) hone
      (h.toNat?_natCast n (lt_of_le_of_lt hn exponentLimit_lt)) hn

omit [LT K] in
/-- A sign changes the coefficient of a factor. -/
theorem Means.sign {ts : List Token} {n m : Nat} {c : K} (h : Means w .power ts (single n c))
    (hc : c = (m : K)) (negative : Bool) :
    Means w .unary (Shown.signTokens negative ++ ts) (single n (signed negative m : K)) := by
  obtain ⟨t, hderives, hpolynomial⟩ := h
  subst hc
  cases negative with
  | false => exact ⟨t, .ofPower hderives, hpolynomial⟩
  | true =>
    refine ⟨.neg t, .negative (.ofPower hderives), ?_⟩
    rw [ofTree, hpolynomial]
    rfl

/-- The body of a term with a sign means the term. -/
theorem means_term (h : ExactIntegers K) (hE : WritesExponents K exponentTokens)
    (hw : w ∉ Surface.keywords) {s : Shown} (hs : s.InRange) (negative : Bool) :
    Means w .term (Shown.signTokens negative ++ Shown.bodyTokens exponentTokens w s)
      (single s.exponent (signed negative s.magnitude : K)) := by
  have hnumber : Means w .power [.number (Decimal.digits s.magnitude)]
      (single 0 (s.magnitude : K)) := means_digits h hs.magnitude_lt
  have hpower := means_power h hE hw hs.exponent_le
  unfold Shown.bodyTokens
  split_ifs with hzero hone
  · obtain ⟨t, hderives, ht⟩ := hnumber.sign rfl negative
    exact ⟨t, .ofUnary hderives, hzero ▸ ht⟩
  · obtain ⟨t, hderives, ht⟩ := hpower.sign (m := s.magnitude) (by rw [hone, h.natCast_one]) negative
    exact ⟨t, .ofUnary hderives, ht⟩
  · obtain ⟨t, hderives, ht⟩ := hnumber.sign rfl negative
    obtain ⟨u, hderives', hu⟩ := hpower
    refine ⟨.binary .times t u, ?_, ?_⟩
    · rw [List.append_cons]
      exact .term (.inl rfl) (.ofUnary hderives) (.ofPower hderives')
    · rw [ofTree, ht, ok_bind, hu, ok_bind, multiply_single (by simpa using hs.exponent_le)
        (signed_mul_one h negative hs.magnitude_lt)
        (zero_add_signed h negative hs.pos hs.magnitude_lt), Nat.zero_add]

/-- Each further term has a smaller exponent, and is put in front of those before it. -/
theorem means_sum (h : ExactIntegers K) (hE : WritesExponents K exponentTokens)
    (hw : w ∉ Surface.keywords) {ss : List Shown} (hrange : ∀ s ∈ ss, s.InRange)
    (hdescending : ss.Pairwise fun s s' => s'.exponent < s.exponent) :
    ∀ {ts : List Token} {p : Polynomial K}, Means w .sum ts p →
      (∀ s ∈ ss, ∀ t ∈ p.terms, s.exponent < t.1) →
      ∃ q : Polynomial K, Means w .sum (ts ++ ss.flatMap (Shown.linkTokens exponentTokens w)) q ∧
        q.terms = (ss.map Shown.term).reverse ++ p.terms := by
  induction ss with
  | nil =>
    intro ts p hp _
    exact ⟨p, by simpa using hp, rfl⟩
  | cons s ss ih =>
    intro ts p hp hless
    obtain ⟨hs, hrange⟩ := List.forall_mem_cons.1 hrange
    obtain ⟨hfirst, hdescending⟩ := List.pairwise_cons.1 hdescending
    obtain ⟨hlessFirst, hless⟩ := List.forall_mem_cons.1 hless
    -- the polynomial with the first term
    have hzero : (0 : K) + signed s.negative s.magnitude = signed s.negative s.magnitude :=
      zero_add_signed h s.negative hs.pos hs.magnitude_lt
    have hterms := terms_add_single hlessFirst hzero
    have hlink : Means w .sum (ts ++ Shown.linkTokens exponentTokens w s)
        (p.add (single s.exponent (signed s.negative s.magnitude : K))) := by
      obtain ⟨t, hderives, ht⟩ := hp
      obtain ⟨u, hderives', hu⟩ := means_term h hE hw hs false
      unfold Shown.linkTokens
      cases hnegative : s.negative with
      | false =>
        refine ⟨.binary .plus t u, .sum (.inl rfl) hderives hderives', ?_⟩
        rw [ofTree, ht, ok_bind, hu]
        rfl
      | true =>
        refine ⟨.binary .minus t u, .sum (.inr rfl) hderives hderives', ?_⟩
        rw [ofTree, ht, ok_bind, hu]
        rfl
    have hlessNext : ∀ s' ∈ ss, ∀ t ∈ (p.add (single s.exponent
        (signed s.negative s.magnitude : K))).terms, s'.exponent < t.1 := by
      intro s' hs' t ht
      rw [hterms] at ht
      rcases List.mem_cons.1 ht with rfl | ht
      · exact hfirst s' hs'
      · exact hless s' hs' t ht
    obtain ⟨q, hq, hqterms⟩ := ih hrange hdescending hlink hlessNext
    refine ⟨q, by simpa using hq, ?_⟩
    rw [hqterms, hterms]
    simp [Shown.term]

/-- The terms of a sum: those that are shown, or a zero. -/
def Shown.sumTerms (ss : List Shown) : List (Nat × K) :=
  if ss.isEmpty then [(0, 0)] else (ss.map Shown.term).reverse

/-- The tokens of a sum mean a polynomial with just the terms that are shown. -/
theorem means_sumTokens (h : ExactIntegers K) (hE : WritesExponents K exponentTokens)
    (hw : w ∉ Surface.keywords) {ss : List Shown} (hrange : ∀ s ∈ ss, s.InRange)
    (hdescending : ss.Pairwise fun s s' => s'.exponent < s.exponent) :
    ∃ p : Polynomial K, Means w .sum (Shown.sumTokens exponentTokens w ss) p ∧
      p.terms = Shown.sumTerms ss := by
  cases ss with
  | nil =>
    obtain ⟨t, hderives, ht⟩ := means_digits (w := w) h (m := 0) (by decide)
    refine ⟨_, ⟨t, .ofTerm (.ofUnary (.ofPower hderives)), ht⟩, ?_⟩
    rw [h.natCast_zero]
    rfl
  | cons s ss =>
    obtain ⟨hs, hrange⟩ := List.forall_mem_cons.1 hrange
    obtain ⟨hfirst, hdescending⟩ := List.pairwise_cons.1 hdescending
    obtain ⟨t, hderives, ht⟩ := means_term h hE hw hs s.negative
    obtain ⟨p, hp, hterms⟩ := means_sum h hE hw hrange hdescending ⟨t, .ofTerm hderives, ht⟩ (by
      intro s' hs' t ht
      obtain rfl := List.mem_singleton.1 ht
      exact hfirst s' hs')
    refine ⟨p, hp, ?_⟩
    rw [hterms]
    simp [Shown.sumTerms, Shown.term, single]

/-! ## Exponents -/

/-- An exponent as digits. -/
def plainExponent (n : Nat) : List Token := [.number (Decimal.digits n)]

/-- An exponent in parentheses. -/
def groupedExponent (n : Nat) : List Token := [.opening, .number (Decimal.digits n), .closing]

theorem writesExponents_plain (h : ExactIntegers K) : WritesExponents K plainExponent := by
  intro n hn
  rw [← h.read_digits n (lt_of_le_of_lt hn exponentLimit_lt)]
  exact .ofPower (.ofAtom (.number _))

theorem writesExponents_grouped (h : ExactIntegers K) : WritesExponents K groupedExponent :=
  fun n hn => .ofPower (.ofAtom (.group (.ofTerm (.ofUnary (writesExponents_plain h n hn)))))

end Means

end SchoolMath.Polynomial
