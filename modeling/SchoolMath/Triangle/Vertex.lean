import SchoolMath.Text.Blank

/-!
# `Triangle.Vertex` — vertices and the quantities at them

A side lies opposite the vertex of the same letter. `PerVertex` holds one item for each vertex.
-/

namespace SchoolMath.Triangle

/-- A vertex of a triangle. -/
inductive Vertex where
  | A | B | C
deriving DecidableEq, Repr

namespace Vertex

/-- The three vertices in order. -/
def all : List Vertex := [.A, .B, .C]

/-- The two other vertices in order. -/
def others : Vertex → Vertex × Vertex
  | .A => (.B, .C)
  | .B => (.A, .C)
  | .C => (.A, .B)

/-- The letter of the vertex, which is the name of its angle. -/
def name : Vertex → String
  | .A => "A"
  | .B => "B"
  | .C => "C"

/-- The name of the side opposite the vertex. -/
def sideName : Vertex → String
  | .A => "a"
  | .B => "b"
  | .C => "c"

/-- The vertex that a letter names, in either case and with any blanks around it. -/
def read? (text : String) : Option Vertex :=
  match Text.trim text.toList with
  | ['A'] | ['a'] => some .A
  | ['B'] | ['b'] => some .B
  | ['C'] | ['c'] => some .C
  | _ => none

end Vertex

/-- One item for each vertex. -/
structure PerVertex (α : Type) where
  a : α
  b : α
  c : α
deriving DecidableEq, Repr

namespace PerVertex

variable {α : Type}

/-- The item of a vertex. -/
def get (items : PerVertex α) : Vertex → α
  | .A => items.a
  | .B => items.b
  | .C => items.c

/-- The items with another one for a vertex. -/
def set (items : PerVertex α) (item : α) : Vertex → PerVertex α
  | .A => { items with a := item }
  | .B => { items with b := item }
  | .C => { items with c := item }

theorem get_set_self (items : PerVertex α) (item : α) (v : Vertex) :
    (items.set item v).get v = item := by
  cases v <;> rfl

theorem get_set_of_ne (items : PerVertex α) (item : α) {v w : Vertex} (h : w ≠ v) :
    (items.set item v).get w = items.get w := by
  cases v <;> cases w <;> first | rfl | exact absurd rfl h

end PerVertex

/-- A side or an angle of a triangle. -/
inductive Quantity where
  | side (opposite : Vertex)
  | angle (vertex : Vertex)
deriving DecidableEq, Repr

/-- The letter of a side or an angle. -/
def Quantity.name : Quantity → String
  | .side opposite => opposite.sideName
  | .angle vertex => vertex.name

end SchoolMath.Triangle
