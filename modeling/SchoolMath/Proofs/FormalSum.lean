import Mathlib
import SchoolMath.FormalSum

/-!
# `FormalSum` — what a formal sum stands for

Once each key has a weight, a formal sum has a value: the sum of its coefficients times the weights
of their keys. Every operation on formal sums is the operation on values that its name says,
whatever the weights; that coefficients which cancelled are kept makes no difference to a value.

Weights may lie in any module over the coefficients, so that a polynomial with real coefficients
also has values at complex numbers.
-/

namespace SchoolMath.FormalSum

variable {ι K M : Type} [LT ι] [CommRing K] [AddCommGroup M] [Module K M] (weight : ι → M)

/-- The value of a list of terms. -/
def valueOf (ts : List (ι × K)) : M := (ts.map fun t => t.2 • weight t.1).sum

/-- The value of a formal sum. -/
def value (s : FormalSum ι K) : M := valueOf weight s.terms

omit [LT ι] in
@[simp] theorem valueOf_nil : valueOf weight ([] : List (ι × K)) = 0 := rfl

omit [LT ι] in
@[simp] theorem valueOf_cons (t : ι × K) (ts : List (ι × K)) :
    valueOf weight (t :: ts) = t.2 • weight t.1 + valueOf weight ts := by
  simp [valueOf]

@[simp] theorem value_empty : value weight (empty : FormalSum ι K) = 0 := rfl

/-- A factor of all coefficients is a factor of the value. -/
theorem value_mapCoefficients_mul (c : K) (s : FormalSum ι K) :
    value weight (s.mapCoefficients (c * ·)) = c • value weight s := by
  obtain ⟨ts, hts⟩ := s
  simp only [mapCoefficients, value]
  clear hts
  induction ts with
  | nil => simp
  | cons t ts ih => rw [List.map_cons, valueOf_cons, valueOf_cons, ih, mul_smul, smul_add]

/-- Changing all signs changes the sign of the value. -/
theorem value_mapCoefficients_neg (s : FormalSum ι K) :
    value weight (s.mapCoefficients (-·)) = -value weight s := by
  have hmul : s.mapCoefficients (-·) = s.mapCoefficients (-1 * ·) := by simp only [neg_one_mul]
  rw [hmul, value_mapCoefficients_mul, neg_one_smul]

/-- A linear map takes the value with some weights to the value with their images as weights. -/
theorem map_value {N : Type} [AddCommGroup N] [Module K N] (f : M →ₗ[K] N) (s : FormalSum ι K) :
    f (s.value weight) = s.value fun key => f (weight key) := by
  simp only [value, valueOf, map_list_sum, List.map_map]
  congr 1
  exact List.map_congr_left fun t _ => f.map_smul t.2 (weight t.1)

/-! ## Sums -/

section Add

variable [DecidableLT ι] [Std.Trichotomous fun a b : ι => a < b]

/-- A term adds its coefficient times the weight of its key. -/
theorem valueOf_insertTerm (key : ι) (c : K) (ts : List (ι × K)) :
    valueOf weight (insertTerm key c ts) = valueOf weight ts + c • weight key := by
  induction ts with
  | nil => simp [insertTerm]
  | cons t ts ih =>
    unfold insertTerm
    split_ifs with hlt hgt
    · rw [valueOf_cons, zero_add, add_comm]
    · rw [valueOf_cons, valueOf_cons, ih, add_assoc]
    · obtain rfl : key = t.1 := Std.Trichotomous.trichotomous key t.1 hlt hgt
      simp only [valueOf_cons, add_smul]
      abel

variable [Ordered ι]

theorem value_addTerm (s : FormalSum ι K) (key : ι) (c : K) :
    value weight (s.addTerm key c) = value weight s + c • weight key :=
  valueOf_insertTerm weight key c s.terms

/-- Terms added one after another add their value. -/
theorem value_foldl_addTerm (ts : List (ι × K)) (s : FormalSum ι K) :
    value weight (ts.foldl (fun r u => r.addTerm u.1 u.2) s) =
      value weight s + valueOf weight ts := by
  induction ts generalizing s with
  | nil => simp
  | cons t ts ih => rw [List.foldl_cons, ih, value_addTerm, valueOf_cons, add_assoc]

/-- The value of a list of terms whose keys may repeat is that of their formal sum. -/
theorem value_ofTerms (ts : List (ι × K)) : value weight (ofTerms ts) = valueOf weight ts := by
  rw [ofTerms, value_foldl_addTerm, value_empty, zero_add]

theorem value_add (s t : FormalSum ι K) :
    value weight (s.add t) = value weight s + value weight t :=
  value_foldl_addTerm weight t.terms s

end Add

/-! ## Keys -/

section Keys

omit [CommRing K]

@[simp] theorem keys_mapCoefficients (f : K → K) (s : FormalSum ι K) :
    (s.mapCoefficients f).keys = s.keys := by
  simp [keys, mapCoefficients]

variable [Zero K] [Add K] [DecidableLT ι] [Std.Trichotomous fun a b : ι => a < b]

/-- A term that is inserted brings its key, even if its coefficient is zero. -/
theorem mem_map_insertTerm {key key' : ι} {c : K} {ts : List (ι × K)} :
    key' ∈ (insertTerm key c ts).map (·.1) ↔ key' = key ∨ key' ∈ ts.map (·.1) := by
  induction ts with
  | nil => simp [insertTerm]
  | cons t ts ih =>
    unfold insertTerm
    split_ifs with hlt hgt
    · simp
    · simp only [List.map_cons, List.mem_cons, ih]
      tauto
    · -- the key is that of the first term
      obtain rfl : key = t.1 := Std.Trichotomous.trichotomous key t.1 hlt hgt
      simp

variable [Ordered ι]

/-- The keys of a sum with one more term are its key and those that were there. -/
theorem mem_keys_addTerm {s : FormalSum ι K} {key key' : ι} {c : K} :
    key' ∈ (s.addTerm key c).keys ↔ key' = key ∨ key' ∈ s.keys := mem_map_insertTerm

/-- Terms added one after another add their keys. -/
theorem mem_keys_foldl_addTerm {key : ι} (ts : List (ι × K)) (s : FormalSum ι K) :
    key ∈ (ts.foldl (fun r u => r.addTerm u.1 u.2) s).keys ↔
      key ∈ s.keys ∨ key ∈ ts.map (·.1) := by
  induction ts generalizing s with
  | nil => simp
  | cons t ts ih =>
    rw [List.foldl_cons, ih, mem_keys_addTerm, List.map_cons, List.mem_cons]
    tauto

/-- The keys of a list of terms whose keys may repeat. -/
theorem mem_keys_ofTerms {key : ι} (ts : List (ι × K)) :
    key ∈ (ofTerms ts).keys ↔ key ∈ ts.map (·.1) := by
  rw [ofTerms, mem_keys_foldl_addTerm]
  simp [keys, empty]

/-- The keys of a sum are those of both summands, whatever cancels. -/
theorem mem_keys_add {s t : FormalSum ι K} {key : ι} :
    key ∈ (s.add t).keys ↔ key ∈ s.keys ∨ key ∈ t.keys := mem_keys_foldl_addTerm t.terms s

end Keys

/-! ## Coefficients -/

section Coefficient

omit [LT ι] [CommRing K] in
/-- A key that no term has has no coefficient. -/
theorem lookup_eq_none [BEq ι] [LawfulBEq ι] {ts : List (ι × K)} {key : ι}
    (h : ∀ t ∈ ts, t.1 ≠ key) : ts.lookup key = none := by
  rw [List.lookup_eq_none_iff]
  intro t ht
  simpa using (h t ht).symm

/-- A value is the sum of all coefficients, also those that are zero because their key is missing,
times the weights of their keys. -/
theorem value_eq_sum [BEq ι] [LawfulBEq ι] [DecidableEq ι] [Std.Irrefl fun a b : ι => a < b]
    {s : FormalSum ι K} {keys : Finset ι} (h : ∀ key ∈ s.keys, key ∈ keys) :
    value weight s = ∑ key ∈ keys, s.coefficient key • weight key := by
  obtain ⟨ts, hts⟩ := s
  simp only [FormalSum.keys, value, coefficient, List.mem_map] at h ⊢
  induction ts with
  | nil => simp
  | cons t ts ih =>
    obtain ⟨k, c⟩ := t
    obtain ⟨ht, hts⟩ := List.pairwise_cons.1 hts
    have hnone : ts.lookup k = none := by
      refine lookup_eq_none fun u hu => ?_
      rintro rfl
      exact Std.Irrefl.irrefl u.1 (ht u hu)
    have hkey : k ∈ keys := h k ⟨(k, c), List.mem_cons_self, rfl⟩
    -- each coefficient is the one in the rest, but for the new key, which the rest has not
    have hsplit : ∀ key, ((List.lookup key ((k, c) :: ts)).getD 0) • weight key =
        (if key = k then c • weight key else 0) + ((ts.lookup key).getD 0) • weight key := by
      intro key
      by_cases hk : key = k
      · subst hk
        simp [hnone]
      · have hbeq : (key == k) = false := by simpa using hk
        simp [List.lookup_cons, hbeq, hk]
    rw [valueOf_cons, Finset.sum_congr rfl fun key _ => hsplit key, Finset.sum_add_distrib,
      Finset.sum_ite_eq' keys k, if_pos hkey, ih hts]
    rintro key ⟨u, hu, rfl⟩
    exact h u.1 ⟨u, List.mem_cons_of_mem _ hu, rfl⟩

variable [BEq ι] [LawfulBEq ι] [DecidableEq ι] [Std.Irrefl fun a b : ι => a < b]

/-- A coefficient is the value with the weight one at its key and zero elsewhere. -/
theorem coefficient_eq_value (s : FormalSum ι K) (key : ι) :
    s.coefficient key = s.value fun k => if k = key then (1 : K) else 0 := by
  have hkeys : ∀ k ∈ s.keys, k ∈ insert key s.keys.toFinset := by simp +contextual
  rw [value_eq_sum _ hkeys]
  simp

theorem coefficient_mapCoefficients_mul (c : K) (s : FormalSum ι K) (key : ι) :
    (s.mapCoefficients (c * ·)).coefficient key = c * s.coefficient key := by
  rw [coefficient_eq_value, value_mapCoefficients_mul, ← coefficient_eq_value, smul_eq_mul]

theorem coefficient_mapCoefficients_neg (s : FormalSum ι K) (key : ι) :
    (s.mapCoefficients (-·)).coefficient key = -s.coefficient key := by
  rw [coefficient_eq_value, value_mapCoefficients_neg, ← coefficient_eq_value]

theorem coefficient_add [DecidableLT ι] [Std.Trichotomous fun a b : ι => a < b] [Ordered ι]
    (s t : FormalSum ι K) (key : ι) :
    (s.add t).coefficient key = s.coefficient key + t.coefficient key := by
  simp only [coefficient_eq_value, value_add]

/-- A sum of terms whose keys may repeat has the sum of their coefficients at each key. -/
theorem coefficient_ofTerms [DecidableLT ι] [Std.Trichotomous fun a b : ι => a < b] [Ordered ι]
    (ts : List (ι × K)) (key : ι) :
    (ofTerms ts).coefficient key = (ts.map fun t => if t.1 = key then t.2 else 0).sum := by
  rw [coefficient_eq_value, value_ofTerms, valueOf]
  simp only [smul_eq_mul, mul_ite, mul_one, mul_zero]

end Coefficient

/-! ## Equality -/

section Equality

variable {ι K : Type} [LT ι] [BEq ι] [LawfulBEq ι] [Std.Irrefl fun a b : ι => a < b] [Zero K]

/-- The coefficient at the key of a term is that of the term. -/
theorem coefficient_of_mem {s : FormalSum ι K} {key : ι} {c : K} (h : (key, c) ∈ s.terms) :
    s.coefficient key = c := by
  obtain ⟨ts, hts⟩ := s
  show (ts.lookup key).getD 0 = c
  have hirrefl : ∀ k : ι, ¬ k < k := Std.Irrefl.irrefl
  induction ts with
  | nil => cases h
  | cons u us ih =>
    obtain ⟨hu, hus⟩ := List.pairwise_cons.1 hts
    rcases List.mem_cons.1 h with rfl | h
    · simp
    · have hne : key ≠ u.1 := fun heq => hirrefl u.1 (heq ▸ hu _ h)
      rw [List.lookup_cons, beq_eq_false_iff_ne.2 hne]
      exact ih hus h

/-- The terms are the keys with their coefficients. -/
theorem terms_eq_map_keys (s : FormalSum ι K) :
    s.terms = s.keys.map fun key => (key, s.coefficient key) := by
  rw [keys, List.map_map]
  have hterm : ∀ t ∈ s.terms, ((fun key => (key, s.coefficient key)) ∘ (·.1)) t = id t := by
    intro t ht
    rw [Function.comp_apply, coefficient_of_mem (c := t.2) ht]
    rfl
  rw [List.map_congr_left hterm, List.map_id]

/-- Formal sums with the same keys and the same coefficients are equal. -/
theorem ext_coefficient [Ordered ι] {s t : FormalSum ι K} (hkeys : ∀ key, key ∈ s.keys ↔ key ∈ t.keys)
    (hcoefficient : ∀ key, s.coefficient key = t.coefficient key) : s = t := by
  have hirrefl : ∀ k : ι, ¬ k < k := Std.Irrefl.irrefl
  have : Std.Antisymm fun a b : ι => a < b :=
    ⟨fun a b hab hba => absurd (Ordered.trans hab hba) (hirrefl a)⟩
  have hkeys : s.keys = t.keys := by
    have hs : s.keys.Pairwise fun a b : ι => a < b := List.pairwise_map.2 s.ascending
    have ht : t.keys.Pairwise fun a b : ι => a < b := List.pairwise_map.2 t.ascending
    exact hs.eq_of_mem_iff ht hkeys
  have hterms : s.terms = t.terms := by
    rw [terms_eq_map_keys s, terms_eq_map_keys t, hkeys]
    simp only [hcoefficient]
  cases s
  cases t
  cases hterms
  rfl

end Equality

end SchoolMath.FormalSum
