import SchoolMath.Proofs.Triangle.Angles
import SchoolMath.Proofs.Triangle.Solve

/-!
# `Triangle.Consistency` — when the angles of a triangle fit together

The angles that are given are taken as they are, and those still unknown are found one after the
other: from the sides, but the last one as what the two others leave of 180 degrees. So the angles of
a triangle that is found are the known ones, the ones of its sides, and what is left
(`sides_angles_of_solve`). Nothing compares a given angle with the sides or with the other angles.
Hence the angles add up if one of them was left to be found, and they are in range exactly if the
ones before it leave something for it (`consistent_iff`).

Over the reals a division by zero gives zero, where doubles fail; so here more measurements have a
triangle than are solved with doubles.
-/

namespace SchoolMath.Triangle

/-- The angle is between 0 and 180 degrees. -/
structure InRange (angle : ℝ) : Prop where
  nonneg : 0 ≤ angle
  le : angle ≤ 180

/-- The angles add up to 180 degrees, and each of them is between 0 and 180. -/
structure Solved.Consistent (solved : Solved ℝ) : Prop where
  sum : solved.angles.a + solved.angles.b + solved.angles.c = 180
  range : ∀ v, InRange (solved.angles.get v)

/-! ## The angles that are found -/

/-- The angle at a vertex that the three sides have. -/
noncomputable def angleOf (sides : PerVertex ℝ) (v : Vertex) : ℝ :=
  angleFrom (sides.get v.others.1) (sides.get v.others.2) (sides.get v)

namespace Measurement

/-- The last vertex whose angle is unknown. -/
def lastUnknown? {K : Type} (m : Measurement K) : Option Vertex :=
  Vertex.all.reverse.find? fun v => (m.angle v).isNone

/-- The angle at a vertex that is known, or else the one that the sides have. -/
noncomputable def settled (m : Measurement ℝ) (sides : PerVertex ℝ) (v : Vertex) : ℝ :=
  (m.angle v).getD (angleOf sides v)

/-- What is found for the angle at a vertex. -/
noncomputable def found (m : Measurement ℝ) (sides : PerVertex ℝ) (v : Vertex) : ℝ :=
  if m.lastUnknown? = some v then
    remainingAngle (m.settled sides v.others.1) - m.settled sides v.others.2
  else m.settled sides v

variable {m : Measurement ℝ} {sides : PerVertex ℝ} {p q : Progress ℝ}

/-- Of some last vertices the first is the last unknown one if its angle is unknown and those behind
are known. -/
theorem lastUnknown?_eq_some_iff {v : Vertex} {vs : List Vertex} (hvs : v :: vs <:+ Vertex.all) :
    m.lastUnknown? = some v ↔ m.angle v = none ∧ ∀ w ∈ vs, (m.angle w).isSome = true := by
  have hends : v :: vs = [.A, .B, .C] ∨ v :: vs = [.B, .C] ∨ v :: vs = [.C] := by
    simpa [Vertex.all, List.suffix_cons_iff] using hvs
  unfold lastUnknown?
  rcases hends with h | h | h <;> obtain ⟨rfl, rfl⟩ := List.cons.inj h <;>
    cases hA : m.angle .A <;> cases hB : m.angle .B <;> cases hC : m.angle .C <;>
    simp [Vertex.all, hA, hB, hC]

theorem angle_of_lastUnknown {v : Vertex} (h : m.lastUnknown? = some v) : m.angle v = none := by
  have hnone := List.find?_some h
  simpa using hnone

/-- No other vertex is the last unknown one. -/
theorem lastUnknown?_ne {v w : Vertex} (h : m.lastUnknown? = some v) (hw : w ≠ v) :
    m.lastUnknown? ≠ some w := by
  rw [h]
  exact fun heq => hw (Option.some.inj heq).symm

theorem angle_of_no_lastUnknown (h : m.lastUnknown? = none) (v : Vertex) : m.angle v ≠ none := by
  have hall := List.find?_eq_none.1 h v (List.mem_reverse.2 (Vertex.mem_all v))
  simpa using hall

theorem found_of_not_last {v : Vertex} (h : m.lastUnknown? ≠ some v) :
    m.found sides v = m.settled sides v := if_neg h

theorem settled_of_known {v : Vertex} {x : ℝ} (h : m.angle v = some x) :
    m.settled sides v = x := by
  rw [settled, h]
  rfl

theorem settled_of_unknown {v : Vertex} (h : m.angle v = none) :
    m.settled sides v = angleOf sides v := by
  rw [settled, h]
  rfl

/-- The angles have been looked for, but at the vertices `vs` not yet. -/
def FoundBut (m : Measurement ℝ) (sides : PerVertex ℝ) (vs : List Vertex) (p : Progress ℝ) : Prop :=
  ∀ w, p.measurement.angle w = if w ∈ vs then m.angle w else some (m.found sides w)

/-- The angle at one vertex is looked for. -/
theorem FoundBut.step {v : Vertex} {vs : List Vertex} (hvs : v :: vs <:+ Vertex.all)
    (hp : FoundBut m sides (v :: vs) p) (h : angleByCosines sides p v = .ok q) :
    FoundBut m sides vs q := by
  have hall : Vertex.all.Nodup := by decide
  have hnodup : v ∉ vs := (List.nodup_cons.1 (hall.sublist hvs.sublist)).1
  have hv : p.measurement.angle v = m.angle v := by
    rw [hp v, if_pos List.mem_cons_self]
  -- at the other vertices nothing happens
  have hother : ∀ w, w ≠ v → p.measurement.angle w =
      if w ∈ vs then m.angle w else some (m.found sides w) := by
    intro w hw
    rw [hp w]
    simp [hw]
  have hlearn : ∀ x step, x = m.found sides v → FoundBut m sides vs (p.learnAngle v x step) := by
    rintro x step rfl w
    by_cases hw : w = v
    · subst hw
      simp [Progress.learnAngle, hnodup]
    · simpa [Progress.learnAngle, hw] using hother w hw
  rcases angleByCosines_cases h with ⟨hangle, rfl⟩ | ⟨x, y, hangle, hx, hy, rfl⟩ |
    ⟨x, hangle, hnone, hx, rfl⟩
  · -- the angle is known
    obtain ⟨x, hx⟩ := Option.isSome_iff_exists.1 hangle
    have hlast : m.lastUnknown? ≠ some v := by
      rw [Ne, lastUnknown?_eq_some_iff hvs, ← hv, hx]
      simp
    intro w
    by_cases hw : w = v
    · subst hw
      rw [if_neg hnodup, hx, found_of_not_last hlast, settled_of_known (hv.symm.trans hx)]
    · exact hother w hw
  · -- it is the last one: those behind are known, and those before have been found
    have hlast : m.lastUnknown? = some v := by
      refine (lastUnknown?_eq_some_iff hvs).2 ⟨hv.symm.trans hangle, fun w hw => ?_⟩
      have hne : w ≠ v := fun h => hnodup (h ▸ hw)
      have hangle := hother w hne
      rw [if_pos hw] at hangle
      rw [← hangle]
      rcases Vertex.eq_of_ne hne with rfl | rfl
      · simp [hx]
      · simp [hy]
    have hsettled : ∀ w z, w ≠ v → p.measurement.angle w = some z → z = m.settled sides w := by
      intro w z hw hz
      rw [hother w hw] at hz
      split at hz
      · rw [settled_of_known hz]
      · rw [← Option.some.inj hz, found_of_not_last (lastUnknown?_ne hlast hw)]
    refine hlearn _ _ ?_
    rw [found, if_pos hlast, hsettled _ x v.first_ne hx, hsettled _ y v.second_ne hy]
  · -- another one is unknown, which has not been looked for, so this one is not the last
    have hunknown : ∀ w, w ≠ v → p.measurement.angle w = none → w ∈ vs ∧ m.angle w = none := by
      intro w hw hz
      rw [hother w hw] at hz
      split at hz
      · next hmem => exact ⟨hmem, hz⟩
      · cases hz
    obtain ⟨w, hw, hz⟩ : ∃ w ∈ vs, m.angle w = none := by
      rcases hnone with hnone | hnone
      · exact ⟨_, hunknown _ v.first_ne hnone⟩
      · exact ⟨_, hunknown _ v.second_ne hnone⟩
    have hlast : m.lastUnknown? ≠ some v := by
      rw [Ne, lastUnknown?_eq_some_iff hvs]
      intro h
      simpa [hz] using h.2 w hw
    refine hlearn x _ ?_
    rw [found_of_not_last hlast, settled_of_unknown (hv.symm.trans hangle), eq_angleFrom hx]
    rfl

/-- From all sides each angle is found as said. -/
theorem angle_of_anglesByCosines
    (hsides : p.measurement.sides = ⟨some sides.a, some sides.b, some sides.c⟩)
    (h : anglesByCosines p = .ok q) (v : Vertex) :
    q.measurement.angle v = some (p.measurement.found sides v) := by
  rw [anglesByCosines_of_sides hsides] at h
  have hstart : FoundBut p.measurement sides Vertex.all p := fun w => by
    rw [if_pos (Vertex.mem_all w)]
  obtain ⟨-, hfound⟩ := run_visits
    (fun vs q => vs <:+ Vertex.all ∧ FoundBut p.measurement sides vs q)
    (fun q w vs r hq hstep => ⟨(List.suffix_cons w vs).trans hq.1, hq.2.step hq.1 hstep⟩)
    ⟨List.suffix_rfl, hstart⟩ h
  exact hfound v

/-! ## The triangle of a measurement -/

variable {solved : Solved ℝ} {steps : List Step}

/-- The sides of the triangle are those that the rules for a side know, and its angles are found from
them. -/
theorem sides_angles_of_solve (h : m.solve = .ok (solved, steps)) (v : Vertex) :
    m.withSides.measurement.side v = some (solved.sides.get v) ∧
      solved.angles.get v = m.withSides.measurement.found solved.sides v := by
  obtain ⟨-, -, p, hp, -, -, -, hsolved, -⟩ := of_solve h
  refine ⟨side_of_solve h v, ?_⟩
  have hangle := angle_of_anglesByCosines (sides_eq (side_of_solve h)) hp v
  rw [(of_solved? hsolved v).2] at hangle
  exact Option.some.inj hangle

/-- The angles before the last unknown one leave something for it; or all are known and add up. -/
structure LeavesRest (m : Measurement ℝ) (sides : PerVertex ℝ) : Prop where
  rest : ∀ v, m.lastUnknown? = some v →
    m.settled sides v.others.1 + m.settled sides v.others.2 ≤ 180
  sum : m.lastUnknown? = none →
    m.settled sides .A + m.settled sides .B + m.settled sides .C = 180

/-- Which vertex comes first makes no difference to a sum. -/
theorem sum_eq (values : PerVertex ℝ) (v : Vertex) : values.a + values.b + values.c =
    values.get v + values.get v.others.1 + values.get v.others.2 := by
  cases v <;> simp only [PerVertex.get, Vertex.others] <;> ring

/-- An angle that is not the last unknown one is settled beforehand. -/
theorem angle_of_not_last (h : m.solve = .ok (solved, steps)) {v : Vertex}
    (hv : m.withSides.measurement.lastUnknown? ≠ some v) :
    solved.angles.get v = m.withSides.measurement.settled solved.sides v := by
  rw [(sides_angles_of_solve h v).2, found_of_not_last hv]

/-- The last unknown angle is what the others leave, so that the angles add up. -/
theorem angle_of_last (h : m.solve = .ok (solved, steps)) {v : Vertex}
    (hv : m.withSides.measurement.lastUnknown? = some v) :
    solved.angles.get v = 180 - (m.withSides.measurement.settled solved.sides v.others.1 +
        m.withSides.measurement.settled solved.sides v.others.2) ∧
      solved.angles.a + solved.angles.b + solved.angles.c = 180 := by
  have hlast : solved.angles.get v =
      180 - (m.withSides.measurement.settled solved.sides v.others.1 +
        m.withSides.measurement.settled solved.sides v.others.2) := by
    rw [(sides_angles_of_solve h v).2, found, if_pos hv, remainingAngle]
    push_cast
    ring
  have hother : ∀ w, w ≠ v →
      solved.angles.get w = m.withSides.measurement.settled solved.sides w :=
    fun w hw => angle_of_not_last h (lastUnknown?_ne hv hw)
  refine ⟨hlast, ?_⟩
  rw [sum_eq solved.angles v, hlast, hother _ v.first_ne, hother _ v.second_ne]
  ring

/-- The angles fit together exactly if the known ones are not negative and leave something. -/
theorem consistent_iff_leavesRest (h : m.solve = .ok (solved, steps)) :
    solved.Consistent ↔ (∀ v x, m.withSides.measurement.angle v = some x → 0 ≤ x) ∧
      m.withSides.measurement.LeavesRest solved.sides := by
  constructor
  · rintro ⟨hsum, hrange⟩
    refine ⟨fun v x hx => angle_of_known h hx ▸ (hrange v).nonneg, fun v hv => ?_, fun hnone => ?_⟩
    · linarith [(angle_of_last h hv).1, (hrange v).nonneg]
    · have hsettled := fun v => angle_of_not_last h (v := v) (by simp [hnone])
      rw [← hsettled .A, ← hsettled .B, ← hsettled .C]
      exact hsum
  · rintro ⟨hknown, hrest⟩
    have hsettled : ∀ v, 0 ≤ m.withSides.measurement.settled solved.sides v := by
      intro v
      cases hx : m.withSides.measurement.angle v with
      | none =>
        rw [settled_of_unknown hx]
        exact angleFrom_nonneg _ _ _
      | some x =>
        rw [settled_of_known hx]
        exact hknown v x hx
    obtain ⟨hsum, hnonneg⟩ : solved.angles.a + solved.angles.b + solved.angles.c = 180 ∧
        ∀ v, 0 ≤ solved.angles.get v := by
      cases hlast : m.withSides.measurement.lastUnknown? with
      | none =>
        have hangle := fun v => angle_of_not_last h (v := v) (by simp [hlast])
        refine ⟨?_, fun v => hangle v ▸ hsettled v⟩
        rw [sum_eq solved.angles .A, hangle, hangle, hangle]
        exact hrest.sum hlast
      | some v =>
        obtain ⟨hv, hsum⟩ := angle_of_last h hlast
        refine ⟨hsum, fun w => ?_⟩
        by_cases hw : w = v
        · rw [hw, hv]
          exact sub_nonneg.2 (hrest.rest v hlast)
        · rw [angle_of_not_last h (lastUnknown?_ne hlast hw)]
          exact hsettled w
    -- an angle is what the others, which are not negative, leave
    refine ⟨hsum, fun v => ⟨hnonneg v, ?_⟩⟩
    rw [sum_eq solved.angles v] at hsum
    linarith [hnonneg v.others.1, hnonneg v.others.2]

/-! ## Angles that are those of the sides -/

/-- Any two angles of sides leave something of the angle sum, if the side between them has a length.
-/
theorem angleOf_add_le {sides : PerVertex ℝ} {v : Vertex} (hsides : ∀ w, 0 ≤ sides.get w)
    (hv : 0 < sides.get v) : angleOf sides v.others.1 + angleOf sides v.others.2 ≤ 180 := by
  have hfirst : angleOf sides v.others.1 =
      angleFrom (sides.get v) (sides.get v.others.2) (sides.get v.others.1) := by
    cases v <;> first | rfl | exact angleFrom_comm _ _ _
  have hsecond : angleOf sides v.others.2 =
      angleFrom (sides.get v.others.1) (sides.get v) (sides.get v.others.2) := by
    cases v <;> first | rfl | exact angleFrom_comm _ _ _
  rw [hfirst, hsecond, add_comm]
  exact angleFrom_add_le (hsides v.others.1) hv (hsides v.others.2)

/-- The sides of a triangle that is found are not negative. -/
theorem sides_nonneg (h : m.solve = .ok (solved, steps)) (v : Vertex) : 0 ≤ solved.sides.get v := by
  have hside := (sides_angles_of_solve h v).1
  rcases m.side_withSides v with hgiven | ⟨x, y, hfound⟩ | ⟨x, y, included, hfound⟩
  · exact (pos_of_check (of_solve h).1 (hgiven ▸ hside)).le
  · rw [← Option.some.inj (hfound.symm.trans hside)]
    exact Real.sqrt_nonneg _
  · rw [← Option.some.inj (hfound.symm.trans hside)]
    exact Real.sqrt_nonneg _

/-- All angles that are given are in range and opposite sides that are not given. -/
def FacesUnknown (m : Measurement ℝ) : Prop :=
  ∀ v x, m.angle v = some x → m.side v = none ∧ InRange x

/-- Opposite a given side no angle is given. -/
theorem FacesUnknown.angle_eq_none (hm : m.FacesUnknown) {v : Vertex} {x : ℝ}
    (hx : m.side v = some x) : m.angle v = none := by
  rw [Option.eq_none_iff_forall_ne_some]
  intro y hy
  rw [(hm v y hy).1] at hx
  cases hx

/-- The known angles are those of the sides, and the others are opposite sides that have a length.
-/
structure FitSides (m : Measurement ℝ) (sides : PerVertex ℝ) : Prop where
  unknown : ∃ v, m.angle v = none
  known : ∀ v x, m.angle v = some x → x = angleOf sides v
  opposite : ∀ v, m.angle v = none → 0 < sides.get v

/-- A side that was found lies opposite the angle that it was found from. -/
theorem FacesUnknown.fitSides_of_found (hm : m.FacesUnknown) (h : m.solve = .ok (solved, steps))
    {v : Vertex} {x y z : ℝ} (hx : m.side v.others.1 = some x) (hy : m.side v.others.2 = some y)
    (hside : m.withSides.measurement.side v = some z)
    (hangle : m.withSides.measurement.angle v = some (angleFrom x y z))
    (hother : ∀ w, w ≠ v → m.withSides.measurement.side w = m.side w ∧
      m.withSides.measurement.angle w = m.angle w) :
    m.withSides.measurement.FitSides solved.sides := by
  have hsides : ∀ w z, m.withSides.measurement.side w = some z → z = solved.sides.get w :=
    fun w z hz => Option.some.inj (hz.symm.trans (sides_angles_of_solve h w).1)
  have hfirst : m.withSides.measurement.side v.others.1 = some x := by
    rw [(hother _ v.first_ne).1, hx]
  have hsecond : m.withSides.measurement.side v.others.2 = some y := by
    rw [(hother _ v.second_ne).1, hy]
  have hnone : ∀ w, w ≠ v → m.withSides.measurement.angle w = none := by
    intro w hw
    rw [(hother w hw).2]
    rcases Vertex.eq_of_ne hw with rfl | rfl
    · exact hm.angle_eq_none hx
    · exact hm.angle_eq_none hy
  refine ⟨⟨_, hnone _ v.first_ne⟩, fun w x' hx' => ?_, fun w hw => ?_⟩
  · by_cases hwv : w = v
    · rw [hwv, hangle] at hx'
      rw [hwv, angleOf, ← hsides _ x hfirst, ← hsides _ y hsecond, ← hsides _ z hside]
      exact (Option.some.inj hx').symm
    · rw [hnone w hwv] at hx'
      cases hx'
  · have hwv : w ≠ v := by
      rintro rfl
      rw [hangle] at hw
      cases hw
    have hcheck := (of_solve h).1
    rcases Vertex.eq_of_ne hwv with rfl | rfl
    · exact hsides _ x hfirst ▸ pos_of_check hcheck hx
    · exact hsides _ y hsecond ▸ pos_of_check hcheck hy

/-- Whether a side was found or all are given, the known angles are those of the sides. -/
theorem FacesUnknown.fitSides (hm : m.FacesUnknown) (h : m.solve = .ok (solved, steps)) :
    m.withSides.measurement.FitSides solved.sides := by
  have hcheck := (of_solve h).1
  rcases m.withSides_cases with ⟨v, x, y, -, hx, hy, heq⟩ |
    ⟨hlegs, ⟨v, included, x, y, -, hincluded, hx, hy, heq⟩ | ⟨hnone, heq⟩⟩
  · refine hm.fitSides_of_found h (z := hypotenuse x y) hx hy ?_ ?_ ?_
    · rw [heq, side_withAngle, side_withSide_self]
    · rw [heq, angle_withAngle_self, angleFrom_hypotenuse]
      norm_num
    · intro w hw
      rw [heq, side_withAngle, side_withSide_of_ne _ _ hw, angle_withAngle_of_ne _ _ hw,
        angle_withSide]
      exact ⟨rfl, rfl⟩
  · obtain ⟨-, hrange⟩ := hm v included hincluded
    have hx0 := pos_of_check hcheck hx
    have hy0 := pos_of_check hcheck hy
    refine hm.fitSides_of_found h (z := sideOpposite x y included) hx hy ?_ ?_ ?_
    · rw [heq, side_withSide_self]
    · rw [heq, angle_withSide, hincluded, angleFrom_sideOpposite hx0 hy0 hrange.nonneg hrange.le]
    · intro w hw
      rw [heq, side_withSide_of_ne _ _ hw, angle_withSide]
      exact ⟨rfl, rfl⟩
  · have hgiven : ∀ v, m.side v = some (solved.sides.get v) := fun v =>
      heq ▸ (sides_angles_of_solve h v).1
    have hangle : ∀ v, m.withSides.measurement.angle v = none := fun v =>
      heq.symm ▸ hm.angle_eq_none (hgiven v)
    refine ⟨⟨.A, hangle .A⟩, fun v x hx => ?_, fun v _ => pos_of_check hcheck (hgiven v)⟩
    rw [hangle v] at hx
    cases hx

/-- Angles that are those of the sides leave something of the angle sum for another. -/
theorem FitSides.leavesRest {sides : PerVertex ℝ} (hm : m.FitSides sides)
    (hsides : ∀ v, 0 ≤ sides.get v) : m.LeavesRest sides := by
  have hsettled : ∀ v, m.settled sides v = angleOf sides v := by
    intro v
    cases hx : m.angle v with
    | none => exact settled_of_unknown hx
    | some x => rw [settled_of_known hx, hm.known v x hx]
  refine ⟨fun v hlast => ?_, fun hnone => ?_⟩
  · rw [hsettled, hsettled]
    exact angleOf_add_le hsides (hm.opposite v (angle_of_lastUnknown hlast))
  · obtain ⟨v, hv⟩ := hm.unknown
    exact absurd hv (angle_of_no_lastUnknown hnone v)

/-! ## The main statement -/

/-- An angle that is given is known beforehand, but at a right angle between two given sides 90 is.
-/
theorem angle_withSides (m : Measurement ℝ) (v : Vertex) :
    (m.HasLegs v → m.withSides.measurement.angle v = some 90) ∧
      (¬ m.HasLegs v → m.withSides.measurement.angle v = m.angle v) := by
  refine ⟨?_, fun hlegs => (withSides_keeps hlegs).2⟩
  rintro ⟨hright, hfirst, hsecond⟩
  obtain ⟨x, hx⟩ := Option.isSome_iff_exists.1 hfirst
  obtain ⟨y, hy⟩ := Option.isSome_iff_exists.1 hsecond
  rw [(withSides_of_legs hright hx hy).2]
  norm_num

/-- The angles that are given are taken as they are, but a right angle between two given sides is 90.
Unless all angles are known beforehand they add up to 180 degrees, and they are in range exactly if
those known beforehand are not negative and leave something for the last one. This is so if every
given angle is in range and opposite a side that is not given. -/
theorem consistent_iff (h : m.solve = .ok (solved, steps)) :
    (∀ v, (m.HasLegs v → solved.angles.get v = 90) ∧
      (¬ m.HasLegs v → ∀ x, m.angle v = some x → solved.angles.get v = x)) ∧
    ((∃ v, m.withSides.measurement.angle v = none) →
      solved.angles.a + solved.angles.b + solved.angles.c = 180) ∧
    (solved.Consistent ↔ (∀ v x, m.withSides.measurement.angle v = some x → 0 ≤ x) ∧
      m.withSides.measurement.LeavesRest solved.sides) ∧
    (m.FacesUnknown → solved.Consistent) := by
  refine ⟨fun v => ⟨fun hlegs => ?_, fun hlegs x hx => ?_⟩, ?_, consistent_iff_leavesRest h,
    fun hm => ?_⟩
  · exact angle_of_known h ((m.angle_withSides v).1 hlegs)
  · exact angle_of_known h (((m.angle_withSides v).2 hlegs).trans hx)
  · rintro ⟨v, hv⟩
    cases hlast : m.withSides.measurement.lastUnknown? with
    | none => exact absurd hv (angle_of_no_lastUnknown hlast v)
    | some w => exact (angle_of_last h hlast).2
  · have hfit := hm.fitSides h
    refine (consistent_iff_leavesRest h).2 ⟨fun v x hx => ?_, hfit.leavesRest (sides_nonneg h)⟩
    rw [hfit.known v x hx]
    exact angleFrom_nonneg _ _ _

/-- The angles at two legs. -/
theorem consistent_iff_legs : ∃ solved steps, (legs (3 : ℝ) 4).solve = .ok (solved, steps) ∧
    solved.angles.get .C = 90 ∧ solved.Consistent := by
  obtain ⟨solved, steps, h⟩ := solve_legs
  obtain ⟨hangles, -, -, hfaces⟩ := consistent_iff h
  have hgiven : (legs (3 : ℝ) 4).FacesUnknown := by
    intro v x hx
    cases v <;> cases hx
  exact ⟨solved, steps, h, (hangles .C).1 ⟨rfl, rfl, rfl⟩, hfaces hgiven⟩

/-- The sides of a right triangle are given with three angles of 1 degree. -/
theorem solve_complete_inconsistent : ∃ solved steps,
    (complete ⟨3, 4, 5⟩ ⟨1, 1, 1⟩ : Measurement ℝ).solve = .ok (solved, steps) ∧
      ¬ solved.Consistent := by
  have hcheck : (complete ⟨3, 4, 5⟩ ⟨1, 1, 1⟩ : Measurement ℝ).check = .ok () := by
    refine check_eq_ok_iff.2 fun v => ⟨fun x hx => ⟨rfl, ?_⟩, fun _ _ => rfl⟩
    cases v <;> cases hx <;> norm_num
  refine ⟨_, _, solve_complete hcheck, fun h => ?_⟩
  have hsum : (1 + 1 + 1 : ℝ) = 180 := h.sum
  norm_num at hsum

end Measurement

end SchoolMath.Triangle
