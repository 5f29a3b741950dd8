/-!
# `FormalSum` — finite sums of terms with distinct keys

A formal sum holds coefficients at finitely many keys, in ascending order of the keys. A key whose
coefficients cancel stays with the coefficient zero, so the keys of a result do not depend on the
coefficients. Polynomials have exponents as keys, linear forms names.
-/

namespace SchoolMath

/-- Keys that can be put in ascending order. -/
class Ordered (ι : Type) [LT ι] : Prop where
  trans {a b c : ι} : a < b → b < c → a < c

instance orderedNat : Ordered Nat := ⟨Nat.lt_trans⟩

instance orderedString : Ordered String := ⟨String.lt_trans⟩

/-- Terms with ascending keys. -/
structure FormalSum (ι K : Type) [LT ι] where
  terms : List (ι × K)
  ascending : terms.Pairwise (fun s t => s.1 < t.1) := by exact .nil

namespace FormalSum

variable {ι K : Type} [LT ι]

instance [BEq ι] [BEq K] : BEq (FormalSum ι K) := ⟨fun s t => s.terms == t.terms⟩

/-- The sum without terms. -/
def empty : FormalSum ι K where
  terms := []

/-- The keys in ascending order. -/
def keys (s : FormalSum ι K) : List ι := s.terms.map (·.1)

/-- The coefficient at a key, zero if there is none. -/
def coefficient [BEq ι] [Zero K] (s : FormalSum ι K) (key : ι) : K := (s.terms.lookup key).getD 0

/-- The terms with each coefficient changed by `f`. -/
def mapCoefficients (f : K → K) (s : FormalSum ι K) : FormalSum ι K where
  terms := s.terms.map fun t => (t.1, f t.2)
  ascending := by simpa [List.pairwise_map] using s.ascending

/-! ## Adding a term -/

section Insert

variable [DecidableLT ι] [Zero K] [Add K]

/-- Adds a coefficient at a key of an ascending list; a new key starts from zero. -/
def insertTerm (key : ι) (c : K) : List (ι × K) → List (ι × K)
  | [] => [(key, 0 + c)]
  | t :: ts =>
    if key < t.1 then (key, 0 + c) :: t :: ts
    else if t.1 < key then t :: insertTerm key c ts
    else (t.1, t.2 + c) :: ts

/-- A key of the new list is the key inserted or one of the old. -/
theorem key_mem_insertTerm {key : ι} {c : K} {ts : List (ι × K)} {t : ι × K}
    (h : t ∈ insertTerm key c ts) : t.1 = key ∨ ∃ s ∈ ts, s.1 = t.1 := by
  induction ts with
  | nil => simp [insertTerm] at h; simp [h]
  | cons s ss ih =>
    rw [insertTerm] at h
    split at h
    · rcases List.mem_cons.1 h with rfl | h
      · exact .inl rfl
      · exact .inr ⟨t, h, rfl⟩
    · split at h
      · rcases List.mem_cons.1 h with rfl | h
        · exact .inr ⟨t, List.mem_cons_self, rfl⟩
        · rcases ih h with h | ⟨u, hu, hut⟩
          · exact .inl h
          · exact .inr ⟨u, List.mem_cons_of_mem _ hu, hut⟩
      · rcases List.mem_cons.1 h with rfl | h
        · exact .inr ⟨s, List.mem_cons_self, rfl⟩
        · exact .inr ⟨t, List.mem_cons_of_mem _ h, rfl⟩

variable [Ordered ι]

/-- Inserting keeps the keys ascending. -/
theorem ascending_insertTerm (key : ι) (c : K) {ts : List (ι × K)}
    (h : ts.Pairwise (fun s t => s.1 < t.1)) :
    (insertTerm key c ts).Pairwise (fun s t => s.1 < t.1) := by
  induction ts with
  | nil => simp [insertTerm]
  | cons s ss ih =>
    obtain ⟨hs, hss⟩ := List.pairwise_cons.1 h
    rw [insertTerm]
    split
    · next hlt =>
      refine List.pairwise_cons.2 ⟨fun t ht => ?_, h⟩
      rcases List.mem_cons.1 ht with rfl | ht
      · exact hlt
      · exact Ordered.trans hlt (hs t ht)
    · split
      · next hlt =>
        refine List.pairwise_cons.2 ⟨fun t ht => ?_, ih hss⟩
        rcases key_mem_insertTerm ht with he | ⟨u, hu, hut⟩
        · exact he ▸ hlt
        · exact hut ▸ hs u hu
      · exact List.pairwise_cons.2 ⟨hs, hss⟩

/-- The sum with one more term. -/
def addTerm (s : FormalSum ι K) (key : ι) (c : K) : FormalSum ι K where
  terms := insertTerm key c s.terms
  ascending := ascending_insertTerm key c s.ascending

/-- The sum of a list of terms, whose keys may repeat. -/
def ofTerms (ts : List (ι × K)) : FormalSum ι K :=
  ts.foldl (fun s t => s.addTerm t.1 t.2) empty

/-- The sum of two sums: the terms of the second are added to the first. -/
def add (s t : FormalSum ι K) : FormalSum ι K :=
  t.terms.foldl (fun r u => r.addTerm u.1 u.2) s

end Insert

end FormalSum

end SchoolMath
