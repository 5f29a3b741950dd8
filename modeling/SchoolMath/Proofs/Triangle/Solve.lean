import SchoolMath.Proofs.Triangle.Angles
import SchoolMath.Proofs.Triangle.Rules

/-!
# `Triangle.Solve` — which measurements determine a triangle

After the two rules for a side all sides are known exactly if they are given, if the legs of the right
angle are, or if two sides and the angle between them are (`Measurement.Determined`); no later rule
finds a side. With all sides the third rule finds all angles, so the rules behind it have nothing to
find: the law of sines is used only on measurements that do not determine a triangle. The main
statement is `Measurement.solve_determined`.
-/

namespace SchoolMath.Triangle

/-! ## The sides -/

section Sides

variable {K : Type} [Add K] [Sub K] [Mul K] [NatCast K] [SquareRoot K] [Trigonometry K]
  {m : Measurement K}

/-- The sides are given, or can be found from what is given. -/
def Measurement.Determined {K : Type} (m : Measurement K) : Prop :=
  m.SidesKnown ∨ (∃ v, m.HasLegs v) ∨ ∃ v, m.SideAngleSide v

/-- What the rules for a side make of a measurement. -/
def Measurement.withSides (m : Measurement K) : Progress K :=
  sidesByCosines (completeRightAngle ⟨m, []⟩)

/-- One side at most is found: the hypotenuse, or the third of two sides. -/
theorem Measurement.withSides_cases (m : Measurement K) :
    (∃ v x y, m.rightAt = some v ∧ m.side v.others.1 = some x ∧ m.side v.others.2 = some y ∧
      m.withSides.measurement = (m.withSide v (hypotenuse x y)).withAngle v ((90 : Nat) : K)) ∨
    (∀ v, ¬ m.HasLegs v) ∧
      ((∃ v included x y, m.side v = none ∧ m.angle v = some included ∧
        m.side v.others.1 = some x ∧ m.side v.others.2 = some y ∧
        m.withSides.measurement = m.withSide v (sideOpposite x y included)) ∨
      (∀ v, ¬ m.SideAngleSide v) ∧ m.withSides.measurement = m) := by
  unfold withSides
  rcases completeRightAngle_cases ⟨m, []⟩ with ⟨v, x, y, hright, hx, hy, hm⟩ | ⟨hlegs, hm⟩
  · refine .inl ⟨v, x, y, hright, hx, hy, ?_⟩
    rw [← hm]
    -- no side is left to be found
    have hknown : (completeRightAngle ⟨m, []⟩).measurement.SidesKnown := by
      rw [hm, sidesKnown_iff v]
      simp [Vertex.first_ne, Vertex.second_ne, hx, hy]
    rcases sidesByCosines_cases (completeRightAngle ⟨m, []⟩) with ⟨w, _, _, _, hw, -⟩ | ⟨-, heq⟩
    · have hside := hknown w
      simp [hw] at hside
    · rw [heq]
  · refine .inr ⟨hlegs, ?_⟩
    rcases sidesByCosines_cases (completeRightAngle ⟨m, []⟩) with
      ⟨v, included, x, y, hside, hangle, hx, hy, heq⟩ | ⟨hnone, heq⟩
    · rw [hm] at hside hangle hx hy
      refine .inl ⟨v, included, x, y, hside, hangle, hx, hy, ?_⟩
      rw [heq, Progress.learnSide, hm]
    · rw [hm] at hnone
      exact .inr ⟨hnone, by rw [heq, hm]⟩

/-- The hypotenuse and the right angle are set from the legs. -/
theorem Measurement.withSides_of_legs {v : Vertex} {x y : K} (hright : m.rightAt = some v)
    (hx : m.side v.others.1 = some x) (hy : m.side v.others.2 = some y) :
    m.withSides.measurement.side v = some (hypotenuse x y) ∧
      m.withSides.measurement.angle v = some ((90 : Nat) : K) := by
  rcases m.withSides_cases with ⟨w, x', y', hright', hx', hy', hm⟩ | ⟨hlegs, -⟩
  · obtain rfl : v = w := Option.some.inj (hright.symm.trans hright')
    obtain rfl : x = x' := Option.some.inj (hx.symm.trans hx')
    obtain rfl : y = y' := Option.some.inj (hy.symm.trans hy')
    rw [hm]
    simp
  · exact absurd ⟨hright, by simp [hx], by simp [hy]⟩ (hlegs v)

/-- At any other vertex what is given stays as it is. -/
theorem Measurement.withSides_keeps {v : Vertex} (hv : ¬ m.HasLegs v) :
    (∀ x, m.side v = some x → m.withSides.measurement.side v = some x) ∧
      m.withSides.measurement.angle v = m.angle v := by
  rcases m.withSides_cases with ⟨w, x, y, hright, hx, hy, hm⟩ |
    ⟨-, ⟨w, included, x, y, hside, -, -, -, hm⟩ | ⟨-, hm⟩⟩
  · have hne : v ≠ w := by
      rintro rfl
      exact hv ⟨hright, by simp [hx], by simp [hy]⟩
    rw [hm]
    simp [hne]
  · rw [hm]
    refine ⟨?_, rfl⟩
    intro z hz
    have hne : v ≠ w := by
      rintro rfl
      rw [hside] at hz
      cases hz
    rwa [side_withSide_of_ne _ _ hne]
  · rw [hm]
    exact ⟨fun x hx => hx, rfl⟩

/-- The rules for a side find all sides exactly of the measurements that determine a triangle. -/
theorem Measurement.sidesKnown_withSides_iff :
    m.withSides.measurement.SidesKnown ↔ m.Determined := by
  rcases m.withSides_cases with ⟨v, x, y, hright, hx, hy, hm⟩ |
    ⟨hlegs, ⟨v, included, x, y, hside, hangle, hx, hy, hm⟩ | ⟨hnone, hm⟩⟩
  · refine iff_of_true ?_ (.inr (.inl ⟨v, hright, by simp [hx], by simp [hy]⟩))
    rw [hm, sidesKnown_iff v]
    simp [Vertex.first_ne, Vertex.second_ne, hx, hy]
  · refine iff_of_true ?_ (.inr (.inr ⟨v, hside, by simp [hangle], by simp [hx], by simp [hy]⟩))
    rw [hm, sidesKnown_iff v]
    simp [Vertex.first_ne, Vertex.second_ne, hx, hy]
  · rw [hm]
    constructor
    · exact .inl
    · rintro (hknown | ⟨v, hv⟩ | ⟨v, hv⟩)
      · exact hknown
      · exact absurd hv (hlegs v)
      · exact absurd hv (hnone v)

/-- A side is as it was, or it is a hypotenuse or a third side. -/
theorem Measurement.side_withSides (m : Measurement K) (v : Vertex) :
    m.withSides.measurement.side v = m.side v ∨
      (∃ x y, m.withSides.measurement.side v = some (hypotenuse x y)) ∨
      ∃ x y included, m.withSides.measurement.side v = some (sideOpposite x y included) := by
  rcases m.withSides_cases with ⟨w, x, y, -, -, -, hm⟩ |
    ⟨-, ⟨w, included, x, y, -, -, -, -, hm⟩ | ⟨-, hm⟩⟩
  · by_cases hv : v = w
    · exact .inr (.inl ⟨x, y, by rw [hm, hv, side_withAngle, side_withSide_self]⟩)
    · exact .inl (by rw [hm, side_withAngle, side_withSide_of_ne _ _ hv])
  · by_cases hv : v = w
    · exact .inr (.inr ⟨x, y, included, by rw [hm, hv, side_withSide_self]⟩)
    · exact .inl (by rw [hm, side_withSide_of_ne _ _ hv])
  · exact .inl (by rw [hm])

/-- The rules for a side take early steps. -/
theorem Measurement.isEarly_withSides : m.withSides.IsEarly :=
  isEarly_sidesByCosines (isEarly_completeRightAngle nofun)

end Sides

/-! ## Solving -/

namespace Measurement

section Complete

variable {K : Type} [Zero K] [Add K] [Sub K] [Mul K] [Div K] [NatCast K] [LT K] [DecidableLT K]
  [SquareRoot K] {m : Measurement K}

/-- With all sides and all angles there is a triangle. -/
theorem exists_solved (hsides : m.SidesKnown) (hangles : m.AnglesKnown) :
    ∃ solved, m.solved? = some solved := by
  obtain ⟨sides, hsides⟩ := hsides.exists_sides
  obtain ⟨A, hA⟩ := Option.isSome_iff_exists.1 (hangles .A)
  obtain ⟨B, hB⟩ := Option.isSome_iff_exists.1 (hangles .B)
  obtain ⟨C, hC⟩ := Option.isSome_iff_exists.1 (hangles .C)
  have hangles : m.angles = ⟨some A, some B, some C⟩ := by
    rw [← hA, ← hB, ← hC]
    rfl
  exact ⟨_, by rw [solved?, hsides, hangles]⟩

/-- A triangle has the sides and the angles of its measurement. -/
theorem of_solved? {solved : Solved K} (h : m.solved? = some solved) (v : Vertex) :
    m.side v = some (solved.sides.get v) ∧ m.angle v = some (solved.angles.get v) := by
  unfold solved? at h
  split at h
  · next hsides hangles =>
    obtain rfl := Option.some.inj h
    rw [side, angle, hsides, hangles]
    cases v <;> exact ⟨rfl, rfl⟩
  · cases h

end Complete

theorem side_mem_missing {K : Type} {m : Measurement K} {v : Vertex} (h : m.side v = none) :
    .side v ∈ m.missing := by
  simp [missing, Vertex.mem_all, h]

variable {K : Type} [Zero K] [One K] [Add K] [Sub K] [Mul K] [Div K] [Neg K] [NatCast K] [LT K]
  [LE K] [DecidableLT K] [DecidableLE K] [SquareRoot K] [Finiteness K] [Trigonometry K]
  {m : Measurement K}

/-- A measurement that determines a triangle is solved as soon as its angles are found. -/
theorem solve_of_determined (h : m.check = .ok ()) (hm : m.Determined) :
    (∃ p solved, anglesByCosines m.withSides = .ok p ∧ anglesBySines p = .ok p ∧
      thirdAngle p = p ∧ p.IsEarly ∧ p.measurement.solved? = some solved ∧
      m.solve = .ok (solved, p.steps ++ [.perimeterAndArea])) ∨
    ∃ failure, anglesByCosines m.withSides = .error failure ∧ m.solve = .error failure := by
  have hsides := sidesKnown_withSides_iff.2 hm
  have hrules : applyRules m = anglesByCosines m.withSides >>= fun p =>
    anglesBySines p >>= fun p => pure (thirdAngle p) := rfl
  cases hp : anglesByCosines m.withSides with
  | error failure =>
    refine .inr ⟨failure, rfl, ?_⟩
    simp only [solve, h, ok_bind, hrules, hp]
    rfl
  | ok p =>
    obtain ⟨hlearns, hangles, hearly⟩ := of_anglesByCosines hsides hp
    have hsides : p.measurement.SidesKnown := fun v => hlearns.side v ▸ hsides v
    obtain ⟨solved, hsolved⟩ := exists_solved hsides hangles
    refine .inl ⟨p, solved, rfl, anglesBySines_of_known hangles, thirdAngle_of_known hangles,
      hearly isEarly_withSides, hsolved, ?_⟩
    have happly : applyRules m = .ok p := by
      rw [hrules, hp, ok_bind, anglesBySines_of_known hangles, ok_bind,
        thirdAngle_of_known hangles]
      rfl
    simp only [solve, h, ok_bind, happly, hsolved]
    rfl

/-- A measurement that does not determine a triangle keeps an unknown side. -/
theorem solve_of_not_determined (h : m.check = .ok ()) (hm : ¬ m.Determined) :
    (∃ missing v, m.solve = .error (.insufficient missing) ∧ .side v ∈ missing) ∨
    ∃ failure, anglesBySines m.withSides = .error failure ∧ m.solve = .error failure := by
  have hsides := mt sidesKnown_withSides_iff.1 hm
  have hrules : applyRules m = anglesBySines m.withSides >>= fun p => pure (thirdAngle p) := by
    show (anglesByCosines m.withSides >>= fun p => anglesBySines p >>= fun p =>
      pure (thirdAngle p)) = _
    rw [anglesByCosines_of_not hsides, ok_bind]
  cases hp : anglesBySines m.withSides with
  | error failure =>
    refine .inr ⟨failure, rfl, ?_⟩
    simp only [solve, h, ok_bind, hrules, hp]
    rfl
  | ok p =>
    obtain ⟨v, hv⟩ := not_sidesKnown_iff.1 hsides
    have hside : (thirdAngle p).measurement.side v = none := by
      rw [side_thirdAngle, (learnsAngles_anglesBySines hp).side, hv]
    have happly : applyRules m = .ok (thirdAngle p) := by
      rw [hrules, hp, ok_bind]
      rfl
    have hnone : (thirdAngle p).measurement.solved? = none := by
      rw [Option.eq_none_iff_forall_ne_some]
      intro solved hsolved
      rw [(of_solved? hsolved v).1] at hside
      cases hside
    refine .inl ⟨(thirdAngle p).measurement.missing, v, ?_, side_mem_missing hside⟩
    simp only [solve, h, ok_bind, happly, hnone]

/-- A triangle that is found comes of the rule for the angles of three sides. -/
theorem of_solve {solved : Solved K} {steps : List Step} (h : m.solve = .ok (solved, steps)) :
    m.check = .ok () ∧ m.Determined ∧ ∃ p, anglesByCosines m.withSides = .ok p ∧
      anglesBySines p = .ok p ∧ thirdAngle p = p ∧ p.IsEarly ∧
      p.measurement.solved? = some solved ∧ steps = p.steps ++ [.perimeterAndArea] := by
  obtain ⟨⟨⟩, hcheck, -⟩ := bind_eq_ok.1 h
  by_cases hm : m.Determined
  · rcases solve_of_determined hcheck hm with
      ⟨p, solved', hcosines, hsines, hsum, hearly, hsolved, hsolve⟩ | ⟨failure, -, hsolve⟩
    · rw [hsolve] at h
      obtain ⟨rfl, rfl⟩ := Prod.mk.inj (Except.ok.inj h)
      exact ⟨hcheck, hm, p, hcosines, hsines, hsum, hearly, hsolved, rfl⟩
    · rw [hsolve] at h
      cases h
  · rcases solve_of_not_determined hcheck hm with ⟨_, _, hsolve, -⟩ | ⟨_, -, hsolve⟩ <;>
      · rw [hsolve] at h
        cases h

/-- From what the rules for a side know to the triangle that is found, only angles are learnt. -/
theorem learnsAngles_of_solve {solved : Solved K} {steps : List Step}
    (h : m.solve = .ok (solved, steps)) :
    ∃ p, LearnsAngles m.withSides p ∧ p.measurement.solved? = some solved := by
  obtain ⟨-, hm, p, hcosines, -, -, -, hsolved, -⟩ := of_solve h
  obtain ⟨hlearns, -, -⟩ := of_anglesByCosines (sidesKnown_withSides_iff.2 hm) hcosines
  exact ⟨p, hlearns, hsolved⟩

/-- The sides of a triangle that is found are those that the rules for a side know. -/
theorem side_of_solve {solved : Solved K} {steps : List Step} (h : m.solve = .ok (solved, steps))
    (v : Vertex) : m.withSides.measurement.side v = some (solved.sides.get v) := by
  obtain ⟨p, hlearns, hsolved⟩ := learnsAngles_of_solve h
  rw [← hlearns.side v]
  exact (of_solved? hsolved v).1

/-- An angle that the rules for a side know is taken as it is. -/
theorem angle_of_known {solved : Solved K} {steps : List Step} (h : m.solve = .ok (solved, steps))
    {v : Vertex} {x : K} (hx : m.withSides.measurement.angle v = some x) :
    solved.angles.get v = x := by
  obtain ⟨p, hlearns, hsolved⟩ := learnsAngles_of_solve h
  have hangle := hlearns.angle v x hx
  rw [(of_solved? hsolved v).2] at hangle
  exact Option.some.inj hangle

/-- A measurement of all sides and all angles. -/
def complete {K : Type} (sides angles : PerVertex K) : Measurement K :=
  { sides := ⟨some sides.a, some sides.b, some sides.c⟩
    angles := ⟨some angles.a, some angles.b, some angles.c⟩ }

/-- Of a complete measurement nothing is found, and nothing is compared. -/
theorem solve_complete {sides angles : PerVertex K} (h : (complete sides angles).check = .ok ()) :
    (complete sides angles).solve = .ok (⟨sides, angles, sides.a + sides.b + sides.c,
      Triangle.area sides.a sides.b sides.c⟩, [.perimeterAndArea]) := by
  have hrules : applyRules (complete sides angles) = .ok ⟨complete sides angles, []⟩ := rfl
  rw [solve, h, ok_bind, hrules, ok_bind]
  rfl

/-- A triangle is found exactly of a measurement that determines it, unless a cosine is out of range;
otherwise a side is missing, or a sine is out of range. So when a triangle is found, neither the law
of sines nor the rule for the last angle has changed anything. -/
theorem solve_determined (h : m.check = .ok ()) :
    (m.Determined → (∃ solved steps, m.solve = .ok (solved, steps)) ∨
      ∃ (x y z : K) (failure : Failure K), m.solve = .error failure ∧
        angleBetween x y z = .error failure ∧ IsRatioFailure failure) ∧
    (¬ m.Determined →
      (∃ missing v, m.solve = .error (.insufficient missing) ∧ .side v ∈ missing) ∨
      ∃ (angle opposite side : K) (failure : Failure K), m.solve = .error failure ∧
        angleOpposite angle opposite side = .error failure ∧ IsRatioFailure failure) ∧
    ∀ solved steps, m.solve = .ok (solved, steps) →
      ∃ p, anglesByCosines (sidesByCosines (completeRightAngle ⟨m, []⟩)) = .ok p ∧
        anglesBySines p = .ok p ∧ thirdAngle p = p ∧ steps = p.steps ++ [.perimeterAndArea] ∧
        ∀ v, .angleBySines v ∉ steps ∧ .angleBySum v ∉ steps := by
  refine ⟨fun hm => ?_, fun hm => ?_, fun solved steps hsolve => ?_⟩
  · rcases solve_of_determined h hm with ⟨_, solved, -, -, -, -, -, hsolve⟩ | ⟨failure, hp, hsolve⟩
    · exact .inl ⟨_, _, hsolve⟩
    · obtain ⟨x, y, z, hratio⟩ := anglesByCosines_error hp
      exact .inr ⟨x, y, z, failure, hsolve, hratio, isRatioFailure_of_angleBetween hratio⟩
  · rcases solve_of_not_determined h hm with hmissing | ⟨failure, hp, hsolve⟩
    · exact .inl hmissing
    · obtain ⟨angle, opposite, side, hratio⟩ := anglesBySines_error hp
      exact .inr ⟨angle, opposite, side, failure, hsolve, hratio,
        isRatioFailure_of_angleOpposite hratio⟩
  · obtain ⟨-, -, p, hcosines, hsines, hsum, hearly, -, rfl⟩ := of_solve hsolve
    have hsteps : ∀ step ∈ p.steps ++ [.perimeterAndArea], step.IsEarly :=
      hearly.append .perimeterAndArea trivial p.measurement
    exact ⟨p, hcosines, hsines, hsum, rfl, fun v => ⟨hsteps _, hsteps _⟩⟩

/-- Two legs of a right angle. -/
def legs {K : Type} (x y : K) : Measurement K :=
  { sides := ⟨some x, some y, none⟩, rightAt := some .C }

/-- The lengths of the legs are positive. -/
theorem check_legs : (legs (3 : ℝ) 4).check = .ok () := by
  refine check_eq_ok_iff.2 fun v => ⟨fun x hx => ⟨rfl, ?_⟩, fun _ _ => rfl⟩
  cases v <;> cases hx <;> norm_num

/-- Of the legs 3 and 4 a triangle is found. -/
theorem solve_legs : ∃ solved steps, (legs (3 : ℝ) 4).solve = .ok (solved, steps) := by
  have hlegs : (legs (3 : ℝ) 4).HasLegs .C := ⟨rfl, rfl, rfl⟩
  rcases solve_of_determined check_legs (.inr (.inl ⟨.C, hlegs⟩)) with
    ⟨_, solved, -, -, -, -, -, hsolve⟩ | ⟨failure, hp, -⟩
  · exact ⟨_, _, hsolve⟩
  · exfalso
    have hside : hypotenuse (3 : ℝ) 4 = 5 := by
      show Real.sqrt (3 * 3 + 4 * 4) = 5
      rw [show (3 * 3 + 4 * 4 : ℝ) = 5 * 5 by norm_num]
      exact Real.sqrt_mul_self (by norm_num)
    have hcosine : cosineFrom 4 (hypotenuse 3 4) 3 = 4 / 5 := by
      rw [hside, cosineFrom]
      norm_num
    have hA := angleBetween_of_mem (x := 4) (y := hypotenuse 3 4) (z := 3) (by rw [hcosine]; norm_num)
      (by rw [hcosine]; norm_num)
    have hsides : (legs (3 : ℝ) 4).withSides.measurement.sides =
        ⟨some 3, some 4, some (hypotenuse 3 4)⟩ := rfl
    have hangles : (legs (3 : ℝ) 4).withSides.measurement.angles =
        ⟨none, none, some ((90 : Nat) : ℝ)⟩ := rfl
    have hrun : anglesByCosines (legs (3 : ℝ) 4).withSides =
        Vertex.all.foldlM (angleByCosines ⟨3, 4, hypotenuse 3 4⟩) (legs (3 : ℝ) 4).withSides :=
      anglesByCosines_of_sides hsides
    rw [hrun] at hp
    simp [Vertex.all, angleByCosines, Vertex.others, PerVertex.get, angle, hangles, hA,
      Progress.learnAngle, withAngle, PerVertex.set] at hp

/-- The triangle of two legs. -/
theorem solve_determined_legs : (legs (3 : ℝ) 4).check = .ok () ∧ (legs (3 : ℝ) 4).Determined ∧
    ∃ solved steps p, (legs (3 : ℝ) 4).solve = .ok (solved, steps) ∧
      anglesByCosines (sidesByCosines (completeRightAngle ⟨legs (3 : ℝ) 4, []⟩)) = .ok p ∧
      anglesBySines p = .ok p ∧ thirdAngle p = p ∧ steps = p.steps ++ [.perimeterAndArea] := by
  have hlegs : (legs (3 : ℝ) 4).HasLegs .C := ⟨rfl, rfl, rfl⟩
  obtain ⟨solved, steps, hsolve⟩ := solve_legs
  obtain ⟨p, hcosines, hsines, hsum, hsteps, -⟩ := (solve_determined check_legs).2.2 _ _ hsolve
  exact ⟨check_legs, .inr (.inl ⟨.C, hlegs⟩), solved, steps, p, hsolve, hcosines, hsines, hsum,
    hsteps⟩

end Measurement

end SchoolMath.Triangle
