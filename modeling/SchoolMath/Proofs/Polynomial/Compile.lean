import SchoolMath.Polynomial.Compile
import SchoolMath.Proofs.Number.Real
import SchoolMath.Proofs.Polynomial.Value

/-!
# `Polynomial.Compile` — the polynomial of a tree is the function of the tree

A tree that has a polynomial in `unknown` mentions no other name, and at every number the polynomial
has the value that the tree has there. The proof is an induction on the tree with one case for each
operation. A power is the case that looks dangerous, since its base only has to *expand* to the
variable, perhaps because other terms cancelled; but what its polynomial has is the power of the
value of the base.
-/

namespace SchoolMath

variable {K : Type}

/-- A value for `unknown` and for no other name. -/
def only (unknown : String) (x : K) : String → Option K :=
  fun name => if name = unknown then some x else none

/-- An exponent is a constant. -/
theorem Tree.exponent?_eq_some [Whole K] {t : Tree K} {n : Nat} (h : t.exponent? = some n) :
    ∃ c, t = .const c ∧ Whole.toNat? c = some n := by
  unfold Tree.exponent? at h
  split at h
  · next c =>
    obtain ⟨hn, -⟩ := Option.filter_eq_some_iff.1 h
    exact ⟨c, rfl, hn⟩
  · cases h

namespace Polynomial

open FormalSum

variable {unknown : String}

section Names

variable [Zero K] [One K] [Add K] [Mul K] [Neg K] [BEq K] [Whole K]

/-- What the polynomial of a power is: a power of the polynomial of the base. -/
theorem ofTree_power {left right : Tree K} {p : Polynomial K}
    (h : ofTree unknown (.binary .power left right) = .ok p) :
    ∃ base n, ofTree unknown left = .ok base ∧ right.exponent? = some n ∧ base.power n = .ok p := by
  rw [ofTree, bind_eq_ok] at h
  obtain ⟨base, hbase, h⟩ := h
  split at h
  · cases h
  · split at h
    · cases h
    · next n hn => exact ⟨base, n, hbase, hn, h⟩

/-- A tree that has a polynomial mentions only its variable. -/
theorem names_of_ofTree {t : Tree K} {p : Polynomial K} (h : ofTree unknown t = .ok p) :
    ∀ name ∈ t.names, name = unknown := by
  induction t generalizing p with
  | const value => simp [Tree.names]
  | var name =>
    rw [ofTree] at h
    split at h
    · next hname => simpa [Tree.names] using hname
    · cases h
  | neg operand ih =>
    rw [ofTree, bind_eq_ok] at h
    obtain ⟨q, hq, -⟩ := h
    exact ih hq
  | binary op left right ihl ihr =>
    have happend : ∀ {q r}, ofTree unknown left = .ok q → ofTree unknown right = .ok r →
        ∀ name ∈ (Tree.binary op left right).names, name = unknown := by
      intro q r hq hr name hname
      rcases List.mem_append.1 hname with hname | hname
      · exact ihl hq name hname
      · exact ihr hr name hname
    cases op with
    | plus | minus | times =>
      simp only [ofTree, bind_eq_ok] at h
      obtain ⟨q, hq, r, hr, -⟩ := h
      exact happend hq hr
    | «over» => cases h
    | power =>
      -- a constant exponent has no names, so those of the base are all
      obtain ⟨base, n, hbase, hn, -⟩ := ofTree_power h
      obtain ⟨c, rfl, -⟩ := Tree.exponent?_eq_some hn
      simpa [Tree.names] using ihl hbase

end Names

variable [CommRing K] [DecidableEq K] [Whole K]

/-- The polynomial of a tree has the value of the tree everywhere. -/
theorem value?_of_ofTree [Div K] [Pow K K] (hpow : ExactPowers K) {t : Tree K} {p : Polynomial K}
    (h : ofTree unknown t = .ok p) (x : K) : t.value? (only unknown x) = some (p.evaluate x) := by
  induction t generalizing p with
  | const value =>
    obtain rfl : constant value = p := Except.ok.inj h
    rw [Tree.value?, evaluate_constant]
  | var name =>
    rw [ofTree] at h
    split at h
    · next hname =>
      obtain rfl : identity = p := Except.ok.inj h
      rw [Tree.value?, only, if_pos hname, evaluate_identity]
    · cases h
  | neg operand ih =>
    rw [ofTree, bind_eq_ok] at h
    obtain ⟨q, hq, heq⟩ := h
    obtain rfl : q.negate = p := Except.ok.inj heq
    rw [Tree.value?, ih hq, evaluate_negate]
    rfl
  | binary op left right ihl ihr =>
    cases op with
    | plus =>
      simp only [ofTree, bind_eq_ok] at h
      obtain ⟨q, hq, r, hr, heq⟩ := h
      obtain rfl : q.add r = p := Except.ok.inj heq
      rw [Tree.value?, ihl hq, ihr hr, evaluate_add]
      rfl
    | minus =>
      simp only [ofTree, bind_eq_ok] at h
      obtain ⟨q, hq, r, hr, heq⟩ := h
      obtain rfl : q.add r.negate = p := Except.ok.inj heq
      rw [Tree.value?, ihl hq, ihr hr, evaluate_add, evaluate_negate, ← sub_eq_add_neg]
      rfl
    | times =>
      simp only [ofTree, bind_eq_ok] at h
      obtain ⟨q, hq, r, hr, hproduct⟩ := h
      rw [Tree.value?, ihl hq, ihr hr, evaluate_multiply x hproduct]
      rfl
    | «over» => cases h
    | power =>
      -- that the base is the variable is not needed: the power is right for any base
      obtain ⟨base, n, hbase, hn, hpower⟩ := ofTree_power h
      obtain ⟨c, rfl, hc⟩ := Tree.exponent?_eq_some hn
      rw [Tree.value?, ihl hbase, evaluate_power x hpower, ← hpow _ c n hc]
      rfl

/-- Expanding a tree never finds an equation degenerate. -/
theorem ofTree_ne_degenerate (t : Tree K) (text : String) :
    ofTree unknown t ≠ .error (.degenerate text) := by
  have hmultiply : ∀ {p q : Polynomial K}, p.multiply q ≠ .error (.degenerate text) := by
    intro p q h
    obtain ⟨m, -, n, -, -, heq⟩ := multiply_eq_error h
    cases heq
  induction t with
  | const value => exact nofun
  | var name =>
    rw [ofTree]
    split
    · exact nofun
    · exact nofun
  | neg operand ih =>
    rw [ofTree, Ne, bind_eq_error]
    rintro (h | ⟨p, -, heq⟩)
    · exact ih h
    · cases heq
  | binary op left right ihl ihr =>
    cases op with
    | plus | minus =>
      simp only [ofTree, Ne, bind_eq_error]
      rintro (h | ⟨p, -, h | ⟨q, -, heq⟩⟩)
      · exact ihl h
      · exact ihr h
      · cases heq
    | times =>
      simp only [ofTree, Ne, bind_eq_error]
      rintro (h | ⟨p, -, h | ⟨q, -, h⟩⟩)
      · exact ihl h
      · exact ihr h
      · exact hmultiply h
    | «over» => exact nofun
    | power =>
      rw [ofTree, Ne, bind_eq_error]
      rintro (h | ⟨base, -, h⟩)
      · exact ihl h
      · split at h
        · cases h
        · split at h
          · cases h
          · obtain ⟨m, n, heq⟩ := multiplyPower_eq_error _ h
            cases heq

/-- A tree that has a polynomial in `unknown` mentions no other name, and the polynomial denotes the
function that the tree denotes. -/
theorem ofTree_denotes [Div K] [Pow K K] (hpow : ExactPowers K) {t : Tree K} {p : Polynomial K}
    (h : ofTree unknown t = .ok p) :
    (∀ name ∈ t.names, name = unknown) ∧
      ∀ x, t.value? (only unknown x) = some (p.evaluate x) :=
  ⟨names_of_ofTree h, value?_of_ofTree hpow h⟩

/-- The base of this power is not the variable, but expands to it. -/
theorem ofTree_denotes_cancelled_cube :
    let v : Tree ℝ := .var "v"
    let cube : Tree ℝ :=
      .binary .power (.binary .minus (.binary .times (.const 2) v) v) (.const 3)
    ∃ p, ofTree "v" cube = .ok p ∧ (∀ name ∈ cube.names, name = "v") ∧
      ∀ x, cube.value? (only "v" x) = some (p.evaluate x) := by
  intro v cube
  have hthree : (Tree.const (3 : ℝ)).exponent? = some 3 := by
    have h : Whole.toNat? (3 : ℝ) = some 3 := toNat?_real_eq_some.2 (by norm_num)
    rw [Tree.exponent?, h]
    rfl
  have hcancels : (2 : ℝ) + -1 = 1 := by norm_num
  obtain ⟨p, hp⟩ : ∃ p, ofTree "v" cube = .ok p := by
    simp [cube, v, ofTree, hthree, hcancels, constant, identity, negate, isIdentity, power,
      multiplyPower, multiply, termPairs, addExponents, exponentLimit, ofTerms, FormalSum.add,
      addTerm, insertTerm, mapCoefficients, FormalSum.empty, bind, Except.bind, pure, Except.pure]
  exact ⟨p, hp, ofTree_denotes exactPowers_real hp⟩

end Polynomial

end SchoolMath
