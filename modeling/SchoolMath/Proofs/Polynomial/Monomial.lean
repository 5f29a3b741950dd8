import SchoolMath.Polynomial.Compile
import SchoolMath.Proofs.Number.Whole
import SchoolMath.Proofs.Polynomial.Value

/-!
# `Polynomial.Monomial` — polynomials with one term

A constant, the variable and its powers have one term, and so have the product of a constant and a
power and its negation. Repeated squaring of the variable adds up exponents only, none of which is
larger than that of the result (`multiplyPower_single`), so a power of the variable has a polynomial
for every exponent in range (`ofTree_power_of_unknown`). A term with a smaller exponent than all others
is put in front of them.
-/

namespace SchoolMath

variable {K : Type}

/-- A whole constant in range is an exponent. -/
theorem Tree.exponent?_const [Whole K] {c : K} {n : Nat} (hc : Whole.toNat? c = some n)
    (hn : n ≤ exponentLimit) : (Tree.const c).exponent? = some n := by
  rw [exponent?, hc]
  simp [Option.filter, hn]

namespace Polynomial

open FormalSum

/-- The polynomial with one term. -/
def single (n : Nat) (c : K) : Polynomial K where
  terms := [(n, c)]
  ascending := List.pairwise_singleton _ _

section Sums

variable [Zero K] [Add K]

/-- A term with a smaller exponent than all others is put in front. -/
theorem terms_addTerm_of_lt {p : Polynomial K} {n : Nat} {c : K} (hp : ∀ t ∈ p.terms, n < t.1)
    (hc : 0 + c = c) : (p.addTerm n c).terms = (n, c) :: p.terms := by
  show insertTerm n c p.terms = _
  cases hterms : p.terms with
  | nil => rw [insertTerm, hc]
  | cons t ts =>
    have ht : n < t.1 := hp t (hterms ▸ List.mem_cons_self)
    rw [insertTerm, if_pos ht, hc]

/-- So a polynomial of such a term is added in front. -/
theorem terms_add_single {p : Polynomial K} {n : Nat} {c : K} (hp : ∀ t ∈ p.terms, n < t.1)
    (hc : 0 + c = c) : (p.add (single n c)).terms = (n, c) :: p.terms :=
  terms_addTerm_of_lt hp hc

/-- A term alone. -/
theorem addTerm_empty (n : Nat) {c : K} (hc : 0 + c = c) :
    (FormalSum.empty : Polynomial K).addTerm n c = single n c := by
  have hterms : ((FormalSum.empty : Polynomial K).addTerm n c).terms = (single n c).terms :=
    terms_addTerm_of_lt nofun hc
  cases hsum : (FormalSum.empty : Polynomial K).addTerm n c
  rw [hsum] at hterms
  cases hterms
  rfl

theorem constant_eq_single {c : K} (hc : 0 + c = c) : constant c = single 0 c :=
  addTerm_empty 0 hc

theorem identity_eq_single [One K] (hone : 0 + (1 : K) = 1) : identity = single 1 (1 : K) :=
  addTerm_empty 1 hone

variable [Mul K]

/-- A product of terms is one term, with the sum of the exponents if that is in range. -/
theorem multiply_single {m n : Nat} {a b c : K} (hrange : m + n ≤ exponentLimit) (hab : a * b = c)
    (hc : 0 + c = c) : (single m a).multiply (single n b) = .ok (single (m + n) c) := by
  have hexponents : addExponents (K := K) m n = .ok (m + n) := if_pos hrange
  have hproduct : (single m a).multiply (single n b) = addExponents m n >>= fun k =>
      .ok (FormalSum.empty.addTerm k (a * b)) := by
    simp only [multiply, termPairs, single, List.flatMap_singleton, List.map_singleton,
      List.foldlM_cons, List.foldlM_nil]
    exact bind_pure _
  rw [hproduct, hexponents, ok_bind, hab, addTerm_empty (m + n) hc]

/-- Repeated squaring of a power of the variable adds up exponents. None of them is larger than the
exponent of the result, so none is out of range. -/
theorem multiplyPower_single [One K] (hone : 0 + (1 : K) = 1) (hsquare : (1 : K) * 1 = 1) (n : Nat) :
    ∀ {a b : Nat}, a + b * n ≤ exponentLimit →
      (single a (1 : K)).multiplyPower (single b 1) n = .ok (single (a + b * n) 1) := by
  -- both exponents change from round to round, while that of the power is halved
  induction n using Nat.strongRecOn with
  | ind n ih =>
    intro a b hrange
    by_cases hzero : n = 0
    · rw [multiplyPower, if_pos hzero, hzero, Nat.mul_zero, Nat.add_zero]
    · have hproduct : b * n = b * (n % 2) + b * 2 * (n / 2) := by
        rw [Nat.mul_assoc, ← Nat.mul_add, Nat.mod_add_div]
      -- the last binary digit
      have hdigit : (if n % 2 = 1 then (single a (1 : K)).multiply (single b 1)
          else .ok (single a 1)) = (.ok (single (a + b * (n % 2)) 1) : Except (Failure K) _) := by
        split
        · next hodd =>
          rw [hodd, Nat.mul_one] at hproduct ⊢
          exact multiply_single (by omega) hsquare hone
        · next heven => rw [show n % 2 = 0 by omega, Nat.mul_zero, Nat.add_zero]
      rw [multiplyPower_eq _ _ hzero, hdigit, ok_bind]
      split
      · next hlast => rw [hproduct, hlast, Nat.mul_zero, Nat.add_zero]
      · next hmore =>
        have hle : b * 2 ≤ b * 2 * (n / 2) := Nat.le_mul_of_pos_right _ (Nat.pos_of_ne_zero hmore)
        rw [multiply_single (by omega) hsquare hone, ok_bind, ← Nat.mul_two,
          ih (n / 2) (by omega) (by omega), hproduct, Nat.add_assoc]

end Sums

section Powers

variable [Zero K] [One K] [Add K] [Mul K] [Neg K] [BEq K] [Whole K] {unknown : String}

/-- The variable has the polynomial that is the variable. -/
theorem ofTree_unknown (hone : 0 + (1 : K) = 1) :
    ofTree unknown (.var unknown) = .ok (single 1 (1 : K)) := by
  rw [ofTree, if_pos rfl, identity_eq_single hone]

/-- A power of the variable with a whole exponent in range is one term. -/
theorem ofTree_power_of_unknown (hone : 0 + (1 : K) = 1) (hsquare : (1 : K) * 1 = 1)
    (hbeq : ((1 : K) == 1) = true) {c : K} {n : Nat} (hc : Whole.toNat? c = some n)
    (hn : n ≤ exponentLimit) :
    ofTree unknown (.binary .power (.var unknown) (.const c)) = .ok (single n (1 : K)) := by
  have hbase : (single 1 (1 : K)).isIdentity = true := hbeq
  have hpower : (single 1 (1 : K)).power n = .ok (single n (1 : K)) := by
    rw [power, constant_eq_single hone, multiplyPower_single hone hsquare n (by omega)]
    simp
  rw [ofTree, ofTree_unknown hone, ok_bind, hbase, Tree.exponent?_const hc hn]
  exact hpower

end Powers

end Polynomial

end SchoolMath
