import Mathlib
import SchoolMath.Tree.Basic

/-!
# `Tree.Value` — values of names and values of trees

A tree has a value exactly if every name in it has one, and its value depends on the values of these
names only.
-/

namespace SchoolMath.Tree

variable {K : Type} [Add K] [Sub K] [Mul K] [Div K] [Neg K] [Pow K K] {given given' : String → Option K}

theorem value?_neg_eq_some {t : Tree K} {y : K} :
    (neg t).value? given = some y ↔ ∃ x, t.value? given = some x ∧ -x = y := by
  rw [value?, Option.map_eq_some_iff]

theorem value?_binary_eq_some {op : Operator} {t u : Tree K} {z : K} :
    (binary op t u).value? given = some z ↔
      ∃ x y, t.value? given = some x ∧ u.value? given = some y ∧ op.apply x y = z := by
  simp only [value?, Option.bind_eq_bind, Option.bind_eq_some_iff, Option.pure_def,
    Option.some.injEq]
  tauto

/-- The value of a tree depends on the values of its names only. -/
theorem value?_congr {t : Tree K} (h : ∀ name ∈ t.names, given name = given' name) :
    t.value? given = t.value? given' := by
  induction t with
  | const value => rfl
  | var name => exact h name List.mem_cons_self
  | neg operand ih => rw [value?, value?, ih h]
  | binary op left right ihl ihr =>
    rw [value?, value?, ihl fun name hname => h name (List.mem_append_left _ hname),
      ihr fun name hname => h name (List.mem_append_right _ hname)]

/-- A tree with a value has only names with a value. -/
theorem isSome_of_value? {t : Tree K} {y : K} (h : t.value? given = some y) :
    ∀ name ∈ t.names, (given name).isSome = true := by
  induction t generalizing y with
  | const value => simp [names]
  | var name =>
    have hgiven : given name = some y := h
    simp [names, hgiven]
  | neg operand ih =>
    obtain ⟨x, hx, -⟩ := value?_neg_eq_some.1 h
    exact ih hx
  | binary op left right ihl ihr =>
    obtain ⟨x, x', hx, hx', -⟩ := value?_binary_eq_some.1 h
    exact List.forall_mem_append.2 ⟨ihl hx, ihr hx'⟩

end SchoolMath.Tree
