import Mathlib
import SchoolMath.Tree.Basic

/-!
# `Tree.Names` — distinct names in ascending order

`distinctNames` keeps every name of a list and adds none, and what it returns is ascending, so no
name stands in it twice.
-/

namespace SchoolMath

theorem mem_insertName {name other : String} {names : List String} :
    name ∈ insertName other names ↔ name = other ∨ name ∈ names := by
  induction names with
  | nil => simp [insertName]
  | cons first names ih =>
    unfold insertName
    split_ifs with hlt heq
    · exact List.mem_cons
    · subst heq
      simp
    · rw [List.mem_cons, ih, List.mem_cons]
      tauto

/-- The distinct names are the names. -/
theorem mem_distinctNames {name : String} {names : List String} :
    name ∈ distinctNames names ↔ name ∈ names := by
  induction names with
  | nil => rfl
  | cons first names ih =>
    show name ∈ insertName first (distinctNames names) ↔ _
    rw [mem_insertName, ih, List.mem_cons]

/-- A name is put where it belongs. -/
theorem ascending_insertName (name : String) {names : List String} (h : names.Pairwise (· < ·)) :
    (insertName name names).Pairwise (· < ·) := by
  induction names with
  | nil => exact List.pairwise_singleton _ name
  | cons first names ih =>
    obtain ⟨hfirst, hrest⟩ := List.pairwise_cons.1 h
    unfold insertName
    split_ifs with hlt heq
    · refine List.pairwise_cons.2 ⟨fun other hother => ?_, h⟩
      rcases List.mem_cons.1 hother with rfl | hother
      · exact hlt
      · exact lt_trans hlt (hfirst other hother)
    · exact h
    · refine List.pairwise_cons.2 ⟨fun other hother => ?_, ih hrest⟩
      rcases mem_insertName.1 hother with rfl | hother
      · exact lt_of_le_of_ne (not_lt.1 hlt) (Ne.symm heq)
      · exact hfirst other hother

/-- The distinct names ascend. -/
theorem ascending_distinctNames (names : List String) : (distinctNames names).Pairwise (· < ·) := by
  induction names with
  | nil => exact .nil
  | cons first names ih => exact ascending_insertName first ih

/-- The distinct names depend on nothing but which names stand in the list. -/
theorem distinctNames_congr {names names' : List String} (h : ∀ name, name ∈ names ↔ name ∈ names') :
    distinctNames names = distinctNames names' := by
  refine List.Pairwise.eq_of_mem_iff (ascending_distinctNames names) (ascending_distinctNames names') ?_
  intro name
  rw [mem_distinctNames, mem_distinctNames, h]

/-- The distinct names of a list in which only one name stands. -/
theorem distinctNames_eq_singleton {names : List String} {name : String} (hmem : name ∈ names)
    (h : ∀ other ∈ names, other = name) : distinctNames names = [name] := by
  have hall : ∀ other ∈ distinctNames names, other = name :=
    fun other hother => h other (mem_distinctNames.1 hother)
  have hascending := ascending_distinctNames names
  have hmem : name ∈ distinctNames names := mem_distinctNames.2 hmem
  cases hnames : distinctNames names with
  | nil =>
    rw [hnames] at hmem
    cases hmem
  | cons first others =>
    rw [hnames] at hall hascending
    obtain rfl := hall first List.mem_cons_self
    cases others with
    | nil => rfl
    | cons second others =>
      -- two equal names do not ascend
      have hsecond := hall second (by simp)
      have hlt : first < second := (List.pairwise_cons.1 hascending).1 second List.mem_cons_self
      rw [hsecond] at hlt
      exact absurd hlt (lt_irrefl first)

end SchoolMath
