import SchoolMath.Proofs.Polynomial.Value

/-!
# `Polynomial.Dense` — the coefficients from zero up to the degree

No exponent is larger than the degree, so the dense coefficients hold all of a polynomial: its value
is the sum of each of them times the weight of its place.
-/

namespace SchoolMath.Polynomial

open FormalSum

variable {K M : Type} [CommRing K] [AddCommGroup M] [Module K M] (weight : Nat → M)

omit [CommRing K] in
/-- No exponent is larger than the degree. -/
theorem le_of_degree? {p : Polynomial K} {degree : Nat} (h : p.degree? = some degree) :
    ∀ key ∈ p.keys, key ≤ degree := by
  have hascending : p.keys.Pairwise (· < ·) := List.pairwise_map.2 p.ascending
  obtain ⟨others, hkeys⟩ := List.getLast?_eq_some_iff.1 h
  intro key hkey
  rw [hkeys] at hascending hkey
  rcases List.mem_append.1 hkey with hkey | hkey
  · exact ((List.pairwise_append.1 hascending).2.2 key hkey degree (by simp)).le
  · exact (List.mem_singleton.1 hkey).le

/-- The value of a polynomial is that of its dense coefficients. -/
theorem value_eq_sum_dense (p : Polynomial K) :
    p.value weight = ∑ n ∈ Finset.range p.dense.length, p.dense.getD n 0 • weight n := by
  cases h : p.degree? with
  | none =>
    -- the zero polynomial has no dense coefficients
    have hterms : p.terms = [] := by simpa [degree?, keys] using h
    simp [dense, h, value, hterms]
  | some degree =>
    have hkeys : ∀ key ∈ p.keys, key ∈ Finset.range (degree + 1) := fun key hkey =>
      Finset.mem_range.2 (Nat.lt_succ_of_le (le_of_degree? h key hkey))
    rw [value_eq_sum weight hkeys]
    simp only [dense, h, List.length_map, List.length_range]
    refine Finset.sum_congr rfl fun n hn => ?_
    have hn : n < degree + 1 := Finset.mem_range.1 hn
    simp [hn]

/-- The value of a polynomial with two dense coefficients. -/
theorem value_of_dense_pair {p : Polynomial K} {b a : K} (h : p.dense = [b, a]) :
    p.value weight = b • weight 0 + a • weight 1 := by
  simp [value_eq_sum_dense, h, Finset.sum_range_succ]

/-- The value of a polynomial with three dense coefficients. -/
theorem value_of_dense_triple {p : Polynomial K} {c b a : K} (h : p.dense = [c, b, a]) :
    p.value weight = c • weight 0 + b • weight 1 + a • weight 2 := by
  simp [value_eq_sum_dense, h, Finset.sum_range_succ]

end SchoolMath.Polynomial
