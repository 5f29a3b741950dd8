import SchoolMath.Proofs.Triangle.Angles
import SchoolMath.Proofs.Triangle.Solve

/-!
# `Triangle.WellPosed` — a triangle that exists is found

Three lengths of which none is longer than the two others together are the sides of a triangle
(`IsTriangle`). The cosine at each of its vertices is a quotient by twice the product of two lengths,
and lies in its range; so none of the checks of the solver refuses it (`Measurement.solvedExactly`).
Two sides with the angle between them, and two legs, give a third side that makes a triangle, because
the angle has a cosine strictly between -1 and 1 (`isTriangle_of_cosine`).

What is under the root in the formula for the area is the square of half the product of two sides
times one minus the square of the cosine between them. It is therefore not negative, and from two
sides with the angle between them the area is the familiar one.

The main statement, `Measurement.solve_wellPosed`, holds whatever the cosine of an angle and the angle
of a cosine are.
-/

namespace SchoolMath.Triangle

/-! ## Sides of a triangle -/

/-- The sides have lengths, and none is longer than the two others together. -/
structure IsTriangle (sides : PerVertex ℝ) : Prop where
  pos : ∀ v, 0 < sides.get v
  le : ∀ v, sides.get v ≤ sides.get v.others.1 + sides.get v.others.2

/-- The cosine at a vertex that three sides have. -/
noncomputable def cosineOf (sides : PerVertex ℝ) (v : Vertex) : ℝ :=
  cosineFrom (sides.get v.others.1) (sides.get v.others.2) (sides.get v)

namespace IsTriangle

variable {sides : PerVertex ℝ}

/-- A side is not shorter than the two others apart. -/
theorem le_add (h : IsTriangle sides) (v : Vertex) :
    sides.get v.others.1 ≤ sides.get v + sides.get v.others.2 ∧
      sides.get v.others.2 ≤ sides.get v + sides.get v.others.1 := by
  have hA := h.le .A
  have hB := h.le .B
  have hC := h.le .C
  cases v <;> simp only [Vertex.others, PerVertex.get] at * <;> constructor <;> linarith

/-- No cosine is a quotient by zero. -/
theorem denominator_pos (h : IsTriangle sides) (v : Vertex) :
    0 < ((2 : Nat) : ℝ) * sides.get v.others.1 * sides.get v.others.2 := by
  have hx := h.pos v.others.1
  have hy := h.pos v.others.2
  positivity

/-- Every cosine is in its range. -/
theorem cosineOf_mem (h : IsTriangle sides) (v : Vertex) :
    -1 ≤ cosineOf sides v ∧ cosineOf sides v ≤ 1 := by
  have hpos := h.denominator_pos v
  have hv := h.pos v
  have hle := h.le v
  obtain ⟨hfirst, hsecond⟩ := h.le_add v
  -- the side lies between the difference and the sum of the two others
  have hsum : 0 ≤ (sides.get v.others.1 + sides.get v.others.2 - sides.get v) *
      (sides.get v.others.1 + sides.get v.others.2 + sides.get v) :=
    mul_nonneg (by linarith) (by linarith)
  have hdifference : 0 ≤ (sides.get v + sides.get v.others.2 - sides.get v.others.1) *
      (sides.get v + sides.get v.others.1 - sides.get v.others.2) :=
    mul_nonneg (by linarith) (by linarith)
  unfold cosineOf cosineFrom
  constructor
  · rw [le_div_iff₀ hpos]
    push_cast
    linarith
  · rw [div_le_iff₀ hpos]
    push_cast
    linarith

end IsTriangle

/-- Two lengths and the third side that a cosine strictly between -1 and 1 gives are the sides of a
triangle with this cosine. -/
theorem isTriangle_of_cosine {sides : PerVertex ℝ} {v : Vertex} {x y c : ℝ} (hx : 0 < x)
    (hy : 0 < y) (hlow : -1 < c) (hhigh : c < 1) (hfirst : sides.get v.others.1 = x)
    (hsecond : sides.get v.others.2 = y)
    (hv : sides.get v = Real.sqrt (x * x + y * y - ((2 : Nat) : ℝ) * x * y * c)) :
    IsTriangle sides ∧ cosineOf sides v = c := by
  have hxy : 0 < x * y := mul_pos hx hy
  have hlower : (x - y) ^ 2 < x * x + y * y - ((2 : Nat) : ℝ) * x * y * c := by
    have hproduct := mul_lt_mul_of_pos_left hhigh hxy
    push_cast
    linarith
  have hupper : x * x + y * y - ((2 : Nat) : ℝ) * x * y * c ≤ (x + y) ^ 2 := by
    have hproduct := mul_lt_mul_of_pos_left hlow hxy
    push_cast
    linarith
  have habs : |x - y| < sides.get v := by
    rw [hv]
    exact Real.lt_sqrt_of_sq_lt (by rwa [sq_abs])
  have hsum : sides.get v ≤ x + y := by
    rw [hv]
    exact Real.sqrt_le_iff.2 ⟨by positivity, hupper⟩
  obtain ⟨hleft, hright⟩ := abs_lt.1 habs
  refine ⟨⟨(Vertex.forall_iff v).2 ⟨?_, hfirst ▸ hx, hsecond ▸ hy⟩, (Vertex.forall_iff v).2 ?_⟩, ?_⟩
  · exact (abs_nonneg _).trans_lt habs
  · rw [hfirst, hsecond]
    refine ⟨hsum, ?_, ?_⟩
    · cases v <;> simp only [Vertex.others, PerVertex.get] at * <;> linarith
    · cases v <;> simp only [Vertex.others, PerVertex.get] at * <;> linarith
  · rw [cosineOf, hfirst, hsecond, hv]
    exact cosineFrom_sqrt hx hy hhigh.le

/-! ## The area -/

/-- What is under the root in the formula for the area. -/
noncomputable def areaSquare (sides : PerVertex ℝ) : ℝ :=
  let s := (sides.a + sides.b + sides.c) / ((2 : Nat) : ℝ)
  s * (s - sides.a) * (s - sides.b) * (s - sides.c)

/-- It is the square of half the product of two sides and the sine between them. -/
theorem IsTriangle.areaSquare_eq {sides : PerVertex ℝ} (h : IsTriangle sides) (v : Vertex) :
    areaSquare sides = (sides.get v.others.1 * sides.get v.others.2 / 2) ^ 2 *
      (1 - cosineOf sides v ^ 2) := by
  have hA : sides.a ≠ 0 := (h.pos .A).ne'
  have hB : sides.b ≠ 0 := (h.pos .B).ne'
  have hC : sides.c ≠ 0 := (h.pos .C).ne'
  cases v <;> simp only [areaSquare, cosineOf, cosineFrom, Vertex.others, PerVertex.get] <;>
    push_cast <;> field_simp <;> ring

/-- The formula for the area has a root. -/
theorem IsTriangle.areaSquare_nonneg {sides : PerVertex ℝ} (h : IsTriangle sides) :
    0 ≤ areaSquare sides := by
  obtain ⟨hlow, hhigh⟩ := h.cosineOf_mem .A
  rw [h.areaSquare_eq .A]
  exact mul_nonneg (sq_nonneg _) (by nlinarith)

/-- So the area is this root. -/
theorem IsTriangle.area_eq {sides : PerVertex ℝ} (h : IsTriangle sides) :
    area sides.a sides.b sides.c = Real.sqrt (areaSquare sides) := by
  have harea : area sides.a sides.b sides.c =
      Real.sqrt (if 0 < areaSquare sides then areaSquare sides else 0) := rfl
  rw [harea]
  split
  · rfl
  · next hpos => rw [le_antisymm (not_lt.1 hpos) h.areaSquare_nonneg]

/-- The area from two sides and the cosine between them. -/
theorem IsTriangle.area_eq_mul_sqrt {sides : PerVertex ℝ} (h : IsTriangle sides) (v : Vertex) :
    area sides.a sides.b sides.c = sides.get v.others.1 * sides.get v.others.2 *
      Real.sqrt (1 - cosineOf sides v ^ 2) / 2 := by
  have hx := h.pos v.others.1
  have hy := h.pos v.others.2
  rw [h.area_eq, h.areaSquare_eq v, Real.sqrt_mul (sq_nonneg _), Real.sqrt_sq (by positivity)]
  ring

/-! ## Solving -/

namespace Measurement

section Given

variable {K : Type}

/-- Three sides. -/
def threeSides (sides : PerVertex K) : Measurement K :=
  { sides := ⟨some sides.a, some sides.b, some sides.c⟩ }

/-- The sides `x` and `y` that meet in a vertex. -/
def twoSides (v : Vertex) (x y : K) : Measurement K :=
  (({} : Measurement K).withSide v.others.1 x).withSide v.others.2 y

/-- Two sides and the angle between them. -/
def twoSidesAngle (v : Vertex) (x y angle : K) : Measurement K := (twoSides v x y).withAngle v angle

/-- Two sides that form a right angle. -/
def legsAt (v : Vertex) (x y : K) : Measurement K := { twoSides v x y with rightAt := some v }

end Given

/-- All sides that are given have a length, and no angle is infinite. -/
theorem check_of_pos {m : Measurement ℝ} (h : ∀ v x, m.side v = some x → 0 < x) :
    m.check = .ok () :=
  check_eq_ok_iff.2 fun v => ⟨fun x hx => ⟨rfl, h v x hx⟩, fun _ _ => rfl⟩

/-- Two sides with lengths pass the check, whatever else is given. -/
theorem check_of_twoSides {m : Measurement ℝ} {v : Vertex} {x y : ℝ} (hx : 0 < x) (hy : 0 < y)
    (h : m.sides = (twoSides v x y).sides) : m.check = .ok () := by
  refine check_of_pos fun w z hw => ?_
  rw [side, h] at hw
  cases v <;> cases w <;> cases hw <;> assumption

/-- The area of a triangle is that of its sides. -/
theorem area_of_solved? {m : Measurement ℝ} {solved : Solved ℝ} (h : m.solved? = some solved) :
    solved.area = Triangle.area solved.sides.a solved.sides.b solved.sides.c := by
  unfold solved? at h
  split at h
  · obtain rfl := Option.some.inj h
    rfl
  · cases h

section Exact

variable [Trigonometry ℝ] {m : Measurement ℝ} {sides : PerVertex ℝ}

/-- The triangle with these sides is found. The cosines that are checked on the way are no quotients
by zero and are in their range; then all angles are known, so that no sine is checked. What is under
the root in the formula for the area is not negative. -/
structure SolvedExactly (m : Measurement ℝ) (sides : PerVertex ℝ) : Prop where
  solve : ∃ solved steps, m.solve = .ok (solved, steps) ∧ solved.sides = sides ∧
    solved.area = Real.sqrt (areaSquare sides)
  cosines : m.withSides.measurement.sides = ⟨some sides.a, some sides.b, some sides.c⟩ ∧
    ∀ v, ((2 : Nat) : ℝ) * sides.get v.others.1 * sides.get v.others.2 ≠ 0 ∧
      -1 ≤ cosineOf sides v ∧ cosineOf sides v ≤ 1
  sines : ∃ p, anglesByCosines m.withSides = .ok p ∧ p.measurement.AnglesKnown ∧
    anglesBySines p = .ok p
  areaSquare : 0 ≤ areaSquare sides

/-- With the sides of a triangle nothing is refused. -/
theorem solvedExactly (h : IsTriangle sides) (hcheck : m.check = .ok ())
    (hsides : ∀ v, m.withSides.measurement.side v = some (sides.get v)) :
    m.SolvedExactly sides := by
  have hknown : m.withSides.measurement.SidesKnown := fun v => by simp [hsides v]
  have hratios : ∀ v, unitRatio (cosineOf sides v) = .ok (cosineOf sides v) := fun v =>
    unitRatio_of_mem (h.cosineOf_mem v).1 (h.cosineOf_mem v).2
  rcases solve_of_determined hcheck (sidesKnown_withSides_iff.1 hknown) with
    ⟨p, solved, hcosines, hsines, -, -, hsolved, hsolve⟩ | ⟨failure, hfailure, -⟩
  · obtain ⟨hlearns, hangles, -⟩ := of_anglesByCosines hknown hcosines
    have hget : ∀ v, solved.sides.get v = sides.get v := by
      intro v
      have hside := (of_solved? hsolved v).1
      rw [hlearns.side v, hsides v] at hside
      exact (Option.some.inj hside).symm
    have hsolvedSides : solved.sides = sides := by
      show (⟨solved.sides.get .A, solved.sides.get .B, solved.sides.get .C⟩ : PerVertex ℝ) =
        ⟨sides.get .A, sides.get .B, sides.get .C⟩
      rw [hget .A, hget .B, hget .C]
    have harea : solved.area = Real.sqrt (Triangle.areaSquare sides) := by
      rw [← h.area_eq, ← hsolvedSides]
      exact area_of_solved? hsolved
    exact ⟨⟨solved, _, hsolve, hsolvedSides, harea⟩,
      ⟨sides_eq hsides, fun v => ⟨(h.denominator_pos v).ne', h.cosineOf_mem v⟩⟩,
      ⟨p, hcosines, hangles, hsines⟩, h.areaSquare_nonneg⟩
  · -- only the check of a cosine can fail
    obtain ⟨v, hv⟩ := anglesByCosines_error_of_sides (sides_eq hsides) hfailure
    have hok : angleBetween (sides.get v.others.1) (sides.get v.others.2) (sides.get v) =
        .ok (arccosine (cosineOf sides v)) := by
      have hratio := hratios v
      unfold cosineOf cosineFrom at hratio
      rw [angleBetween, hratio]
      rfl
    rw [hok] at hv
    cases hv

/-- Two sides with the third one that a cosine strictly between -1 and 1 gives are solved, and the
area is half the product of the two sides and the sine. -/
theorem solvedExactly_of_cosine {v : Vertex} {x y c : ℝ} (hx : 0 < x) (hy : 0 < y) (hlow : -1 < c)
    (hhigh : c < 1) (hcheck : m.check = .ok ())
    (hfirst : m.withSides.measurement.side v.others.1 = some x)
    (hsecond : m.withSides.measurement.side v.others.2 = some y)
    (hv : m.withSides.measurement.side v =
      some (Real.sqrt (x * x + y * y - ((2 : Nat) : ℝ) * x * y * c))) :
    ∃ sides : PerVertex ℝ, sides.get v.others.1 = x ∧ sides.get v.others.2 = y ∧
      m.SolvedExactly sides ∧ ∀ solved steps, m.solve = .ok (solved, steps) →
        solved.area = x * y * Real.sqrt (1 - c ^ 2) / 2 := by
  have hknown : m.withSides.measurement.SidesKnown :=
    (sidesKnown_iff v).2 ⟨by simp [hv], by simp [hfirst], by simp [hsecond]⟩
  obtain ⟨sides, hsides⟩ := hknown.exists_sides
  have hget : ∀ w, m.withSides.measurement.side w = some (sides.get w) := by
    intro w
    rw [side, hsides]
    cases w <;> rfl
  rw [hget] at hfirst hsecond hv
  obtain ⟨htriangle, hcosine⟩ := isTriangle_of_cosine hx hy hlow hhigh (Option.some.inj hfirst)
    (Option.some.inj hsecond) (Option.some.inj hv)
  have hexactly := solvedExactly htriangle hcheck hget
  refine ⟨sides, Option.some.inj hfirst, Option.some.inj hsecond, hexactly, ?_⟩
  intro solved steps hsolve
  obtain ⟨solved', steps', hsolve', -, harea⟩ := hexactly.solve
  obtain ⟨rfl, -⟩ := Prod.mk.inj (Except.ok.inj (hsolve.symm.trans hsolve'))
  rw [harea, ← htriangle.area_eq, htriangle.area_eq_mul_sqrt v, hcosine, Option.some.inj hfirst,
    Option.some.inj hsecond]

/-- A triangle that is well posed is found, and nothing on the way is out of its range: from three
sides of which none is longer than the two others together, from two sides and an angle between them
that has a cosine strictly between -1 and 1, and from two legs. -/
theorem solve_wellPosed :
    (∀ sides, IsTriangle sides → (threeSides sides).SolvedExactly sides) ∧
    (∀ v x y angle, 0 < x → 0 < y → -1 < cosine angle → cosine angle < (1 : ℝ) →
      ∃ sides : PerVertex ℝ, sides.get v.others.1 = x ∧ sides.get v.others.2 = y ∧
        (twoSidesAngle v x y angle).SolvedExactly sides ∧
        ∀ solved steps, (twoSidesAngle v x y angle).solve = .ok (solved, steps) →
          solved.area = x * y * Real.sqrt (1 - cosine angle ^ 2) / 2) ∧
    ((∀ x y : ℝ, hypotenuse x y = Real.sqrt (x * x + y * y)) →
      ∀ v x y, 0 < x → 0 < y →
        ∃ sides : PerVertex ℝ, sides.get v.others.1 = x ∧ sides.get v.others.2 = y ∧
          (legsAt v x y).SolvedExactly sides ∧
          ∀ solved steps, (legsAt v x y).solve = .ok (solved, steps) → solved.area = x * y / 2) := by
  refine ⟨fun sides h => ?_, fun v x y angle hx hy hlow hhigh => ?_, fun hroot v x y hx hy => ?_⟩
  · have hcheck : (threeSides sides).check = .ok () := by
      refine check_of_pos fun v x hx => ?_
      have hpos := h.pos v
      cases v <;> cases hx <;> exact hpos
    exact solvedExactly h hcheck fun v => by cases v <;> rfl
  · refine solvedExactly_of_cosine hx hy hlow hhigh (check_of_twoSides hx hy rfl) ?_ ?_ ?_ <;>
      cases v <;> rfl
  · have hcheck : (legsAt v x y).check = .ok () := check_of_twoSides hx hy rfl
    have hfirst : (legsAt v x y).withSides.measurement.side v.others.1 = some x := by
      cases v <;> rfl
    have hsecond : (legsAt v x y).withSides.measurement.side v.others.2 = some y := by
      cases v <;> rfl
    -- the third side is the one that the cosine 0 gives
    have hthird : (legsAt v x y).withSides.measurement.side v =
        some (Real.sqrt (x * x + y * y - ((2 : Nat) : ℝ) * x * y * 0)) := by
      rw [mul_zero, sub_zero, ← hroot]
      cases v <;> rfl
    obtain ⟨sides, hfirst, hsecond, hexactly, harea⟩ :=
      solvedExactly_of_cosine hx hy (by norm_num) (by norm_num) hcheck hfirst hsecond hthird
    refine ⟨sides, hfirst, hsecond, hexactly, fun solved steps hsolve => ?_⟩
    rw [harea solved steps hsolve]
    norm_num

end Exact

/-- The cosine of 60 degrees. -/
theorem cosine_sixty : cosine (60 : ℝ) = 1 / 2 := by
  show Real.cos (60 * (Real.pi / 180)) = 1 / 2
  rw [show (60 : ℝ) * (Real.pi / 180) = Real.pi / 3 by ring, Real.cos_pi_div_three]

/-- Three sides, two sides with 60 degrees between them, and two legs. -/
theorem solve_wellPosed_samples :
    (threeSides ⟨(3 : ℝ), 4, 5⟩).SolvedExactly ⟨3, 4, 5⟩ ∧
    (∃ solved steps, (twoSidesAngle .C (5 : ℝ) 8 60).solve = .ok (solved, steps) ∧
      solved.area = 5 * 8 * Real.sqrt (1 - (1 / 2) ^ 2) / 2) ∧
    ∃ solved steps, (legsAt .C (3 : ℝ) 4).solve = .ok (solved, steps) ∧ solved.area = 6 := by
  obtain ⟨hsides, hangle, hlegs⟩ := solve_wellPosed
  refine ⟨hsides _ ⟨fun v => ?_, fun v => ?_⟩, ?_, ?_⟩
  · cases v <;> norm_num [PerVertex.get]
  · cases v <;> norm_num [PerVertex.get, Vertex.others]
  · obtain ⟨_, -, -, hexactly, harea⟩ := hangle .C 5 8 60 (by norm_num) (by norm_num)
      (by rw [cosine_sixty]; norm_num) (by rw [cosine_sixty]; norm_num)
    obtain ⟨solved, steps, hsolve, -⟩ := hexactly.solve
    exact ⟨solved, steps, hsolve, by rw [harea solved steps hsolve, cosine_sixty]⟩
  · obtain ⟨_, -, -, hexactly, harea⟩ := hlegs (fun _ _ => rfl) .C 3 4 (by norm_num) (by norm_num)
    obtain ⟨solved, steps, hsolve, -⟩ := hexactly.solve
    refine ⟨solved, steps, hsolve, ?_⟩
    rw [harea solved steps hsolve]
    norm_num

end Measurement

end SchoolMath.Triangle
