import Mathlib
import SchoolMath.Proofs.Outcome
import SchoolMath.Triangle.Solve

/-!
# `Triangle.Rules` — what each rule does to a measurement

Of each rule it is said once in which cases it changes a measurement, and how. The rules for a side
set one side at most (`completeRightAngle_cases`, `sidesByCosines_cases`). The rules for the angles
go through the vertices; a run of such a rule leaves the sides and the angles that are known as they
are (`LearnsAngles`), and a run that fails has failed at one vertex.
-/

namespace SchoolMath.Triangle

/-! ## Vertices -/

namespace Vertex

/-- Every vertex is one vertex or one of the two others. -/
theorem forall_iff {P : Vertex → Prop} (v : Vertex) :
    (∀ w, P w) ↔ P v ∧ P v.others.1 ∧ P v.others.2 := by
  constructor
  · exact fun h => ⟨h _, h _, h _⟩
  · rintro ⟨hv, hfirst, hsecond⟩ w
    cases v <;> cases w <;> assumption

theorem first_ne (v : Vertex) : v.others.1 ≠ v := by
  cases v <;> decide

theorem second_ne (v : Vertex) : v.others.2 ≠ v := by
  cases v <;> decide

/-- Every vertex but one is one of the two others. -/
theorem eq_of_ne {v w : Vertex} (h : w ≠ v) : w = v.others.1 ∨ w = v.others.2 := by
  cases v <;> cases w <;> simp_all [others]

theorem mem_all (v : Vertex) : v ∈ all := by
  cases v <;> decide

end Vertex

/-! ## Measurements -/

namespace Measurement

variable {K : Type} (m : Measurement K) {v w : Vertex} (x : K)

@[simp] theorem side_withSide_self : (m.withSide v x).side v = some x :=
  PerVertex.get_set_self _ _ _

@[simp] theorem side_withSide_of_ne (h : w ≠ v) : (m.withSide v x).side w = m.side w :=
  PerVertex.get_set_of_ne _ _ h

@[simp] theorem angle_withSide : (m.withSide v x).angle w = m.angle w := rfl

@[simp] theorem side_withAngle : (m.withAngle v x).side w = m.side w := rfl

@[simp] theorem angle_withAngle_self : (m.withAngle v x).angle v = some x :=
  PerVertex.get_set_self _ _ _

@[simp] theorem angle_withAngle_of_ne (h : w ≠ v) : (m.withAngle v x).angle w = m.angle w :=
  PerVertex.get_set_of_ne _ _ h

/-- All sides are known. -/
def SidesKnown : Prop := ∀ v, (m.side v).isSome = true

/-- All angles are known. -/
def AnglesKnown : Prop := ∀ v, (m.angle v).isSome = true

/-- The right angle is at `v`, and the sides that form it are known. -/
def HasLegs (v : Vertex) : Prop :=
  m.rightAt = some v ∧ (m.side v.others.1).isSome = true ∧ (m.side v.others.2).isSome = true

/-- Two sides and the angle between them are known, and the side opposite is not. -/
def SideAngleSide (v : Vertex) : Prop :=
  m.side v = none ∧ (m.angle v).isSome = true ∧ (m.side v.others.1).isSome = true ∧
    (m.side v.others.2).isSome = true

variable {m}

theorem sidesKnown_iff (v : Vertex) : m.SidesKnown ↔ (m.side v).isSome = true ∧
    (m.side v.others.1).isSome = true ∧ (m.side v.others.2).isSome = true :=
  Vertex.forall_iff v

theorem sides_eq {sides : PerVertex K} (h : ∀ v, m.side v = some (sides.get v)) :
    m.sides = ⟨some sides.a, some sides.b, some sides.c⟩ := by
  show m.sides = ⟨some (sides.get .A), some (sides.get .B), some (sides.get .C)⟩
  rw [← h .A, ← h .B, ← h .C]
  rfl

/-- A measurement with all sides has a length for each vertex. -/
theorem SidesKnown.exists_sides (h : m.SidesKnown) :
    ∃ sides : PerVertex K, m.sides = ⟨some sides.a, some sides.b, some sides.c⟩ := by
  obtain ⟨a, ha⟩ := Option.isSome_iff_exists.1 (h .A)
  obtain ⟨b, hb⟩ := Option.isSome_iff_exists.1 (h .B)
  obtain ⟨c, hc⟩ := Option.isSome_iff_exists.1 (h .C)
  exact ⟨⟨a, b, c⟩, sides_eq ((Vertex.forall_iff .A).2 ⟨ha, hb, hc⟩)⟩

theorem not_sidesKnown_iff : ¬ m.SidesKnown ↔ ∃ v, m.side v = none := by
  simp [SidesKnown]

/-- With all angles, three are known. -/
theorem AnglesKnown.knownAngles_eq (h : m.AnglesKnown) : m.knownAngles = 3 := by
  simp [knownAngles, Vertex.all, h .A, h .B, h .C]

/-- Two sides and the angle between them are two sides and an angle. -/
theorem SideAngleSide.counts (h : m.SideAngleSide v) : m.knownSides = 2 ∧ m.knownAngles ≠ 0 := by
  obtain ⟨hside, hangle, hfirst, hsecond⟩ := h
  constructor
  · cases v <;> simp_all [knownSides, Vertex.all, Vertex.others]
  · exact (List.countP_pos_iff.2 ⟨v, Vertex.mem_all v, hangle⟩).ne'

end Measurement

/-! ## The check -/

section Check

variable {K : Type} [Zero K] [LT K] [DecidableLT K] [Finiteness K] {m : Measurement K} {v : Vertex}

/-- A vertex passes the check if its side is positive and finite and its angle is finite. -/
theorem Measurement.checkAt_eq_ok_iff : m.checkAt v = .ok () ↔
    (∀ x, m.side v = some x → isFinite x = true ∧ 0 < x) ∧
      ∀ x, m.angle v = some x → isFinite x = true := by
  have hpure : (pure () : Except (Failure K) Unit) = .ok () := rfl
  have hfail : ∀ (failure : Failure K) (next : Except (Failure K) Unit),
      (Except.error failure >>= fun (_ : Unit) => next) = .error failure := fun _ _ => rfl
  unfold checkAt
  cases hside : m.side v with
  | none =>
    cases hangle : m.angle v with
    | none => simp [hpure]
    | some y => by_cases hy : isFinite y = true <;> simp [hy, hpure]
  | some x =>
    by_cases hx : isFinite x = true <;> by_cases hpos : 0 < x
    · cases hangle : m.angle v with
      | none => simp [hx, hpos, hpure]
      | some y => by_cases hy : isFinite y = true <;> simp [hx, hpos, hy, hpure]
    all_goals simp [hx, hpos, hfail]

/-- A measurement passes the check if every vertex does. -/
theorem Measurement.check_eq_ok_iff : m.check = .ok () ↔
    ∀ v, (∀ x, m.side v = some x → isFinite x = true ∧ 0 < x) ∧
      ∀ x, m.angle v = some x → isFinite x = true := by
  simp only [← checkAt_eq_ok_iff]
  constructor
  · intro h
    obtain ⟨⟨⟩, hA, h⟩ := bind_eq_ok.1 h
    obtain ⟨⟨⟩, hB, hC⟩ := bind_eq_ok.1 h
    exact (Vertex.forall_iff .A).2 ⟨hA, hB, hC⟩
  · intro h
    simp only [check, h .A, h .B, h .C, ok_bind]

/-- The sides that are given have a length. -/
theorem Measurement.pos_of_check (h : m.check = .ok ()) {x : K} (hx : m.side v = some x) : 0 < x :=
  ((check_eq_ok_iff.1 h v).1 x hx).2

end Check

/-! ## Steps before the law of sines -/

/-- A step that neither the law of sines nor the rule for the last angle takes. -/
def Step.IsEarly : Step → Prop
  | .angleBySines _ | .angleBySum _ => False
  | _ => True

/-- All steps so far are early. -/
def Progress.IsEarly {K : Type} (p : Progress K) : Prop := ∀ step ∈ p.steps, step.IsEarly

/-- An early step keeps the steps early. -/
theorem Progress.IsEarly.append {K : Type} {p : Progress K} (h : p.IsEarly) (step : Step)
    (hstep : step.IsEarly) (m : Measurement K) : IsEarly ⟨m, p.steps ++ [step]⟩ :=
  List.forall_mem_append.2 ⟨h, List.forall_mem_singleton.2 hstep⟩

/-! ## Ratios -/

/-- A failure of the check of a sine or cosine. -/
def IsRatioFailure {K : Type} (failure : Failure K) : Prop :=
  ∃ ratio, failure = .inconsistentRatio ratio ∨ failure = .ratioNotFinite ratio

section Ratios

variable {K : Type} [One K] [Add K] [Sub K] [Div K] [Neg K] [NatCast K] [LT K] [LE K]
  [DecidableLT K] [DecidableLE K] [Finiteness K] {failure : Failure K}

theorem isRatioFailure_of_unitRatio {ratio : K} (h : unitRatio ratio = .error failure) :
    IsRatioFailure failure := by
  unfold unitRatio at h
  split at h
  · cases h
    exact ⟨ratio, .inr rfl⟩
  · split at h <;> cases h
    exact ⟨ratio, .inl rfl⟩

variable [Mul K] [Trigonometry K]

theorem isRatioFailure_of_angleBetween {x y z : K} (h : angleBetween x y z = .error failure) :
    IsRatioFailure failure := by
  rcases bind_eq_error.1 h with h | ⟨_, -, h⟩
  · exact isRatioFailure_of_unitRatio h
  · cases h

theorem isRatioFailure_of_angleOpposite {angle opposite side : K}
    (h : angleOpposite angle opposite side = .error failure) : IsRatioFailure failure := by
  rcases bind_eq_error.1 h with h | ⟨_, -, h⟩
  · exact isRatioFailure_of_unitRatio h
  · cases h

end Ratios

/-! ## The rules for a side -/

section RightAngle

variable {K : Type} [NatCast K] [Trigonometry K]

/-- The side opposite the right angle is set if the two others are known, and so is that angle. -/
theorem completeRightAngle_cases (p : Progress K) :
    (∃ v x y, p.measurement.rightAt = some v ∧ p.measurement.side v.others.1 = some x ∧
      p.measurement.side v.others.2 = some y ∧ (completeRightAngle p).measurement =
        (p.measurement.withSide v (hypotenuse x y)).withAngle v ((90 : Nat) : K)) ∨
    (∀ v, ¬ p.measurement.HasLegs v) ∧ (completeRightAngle p).measurement = p.measurement := by
  unfold completeRightAngle Measurement.HasLegs
  cases hright : p.measurement.rightAt with
  | none => exact .inr ⟨nofun, rfl⟩
  | some v =>
    cases hx : p.measurement.side v.others.1 with
    | none =>
      refine .inr ⟨?_, by simp [hx]⟩
      rintro _ ⟨⟨⟩, hlegs, -⟩
      simp [hx] at hlegs
    | some x =>
      cases hy : p.measurement.side v.others.2 with
      | none =>
        refine .inr ⟨?_, by simp [hx, hy]⟩
        rintro _ ⟨⟨⟩, -, hlegs⟩
        simp [hy] at hlegs
      | some y => exact .inl ⟨v, x, y, rfl, hx, hy, by simp [hx, hy]⟩

theorem isEarly_completeRightAngle {p : Progress K} (h : p.IsEarly) :
    (completeRightAngle p).IsEarly := by
  unfold completeRightAngle
  split
  · exact h
  · next v _ =>
    have hright := h.append (.rightAngle v) trivial p.measurement
    dsimp only
    split
    · exact hright.append (.pythagoras v) trivial _
    · exact hright

end RightAngle

section ThirdSide

variable {K : Type} [Add K] [Sub K] [Mul K] [NatCast K] [SquareRoot K] [Trigonometry K]

/-- Without two sides and the angle between them nothing is found. -/
theorem sideByCosines_of_not (p : Progress K) {v : Vertex}
    (h : ¬ p.measurement.SideAngleSide v) : sideByCosines p v = p := by
  simp only [sideByCosines]
  split
  · next hside hangle hfirst hsecond =>
    exact absurd ⟨hside, by simp [hangle], by simp [hfirst], by simp [hsecond]⟩ h
  · rfl

/-- The third of two sides is found if the angle between them is known. -/
theorem sidesByCosines_cases (p : Progress K) :
    (∃ v included x y, p.measurement.side v = none ∧ p.measurement.angle v = some included ∧
      p.measurement.side v.others.1 = some x ∧ p.measurement.side v.others.2 = some y ∧
      sidesByCosines p = p.learnSide v (sideOpposite x y included) (.sideByCosines v)) ∨
    (∀ v, ¬ p.measurement.SideAngleSide v) ∧ sidesByCosines p = p := by
  by_cases h : ∃ v, p.measurement.SideAngleSide v
  · obtain ⟨v, hv⟩ := h
    obtain ⟨hsides, hangles⟩ := hv.counts
    obtain ⟨hside, hangle, hfirst, hsecond⟩ := hv
    obtain ⟨included, hincluded⟩ := Option.isSome_iff_exists.1 hangle
    obtain ⟨x, hx⟩ := Option.isSome_iff_exists.1 hfirst
    obtain ⟨y, hy⟩ := Option.isSome_iff_exists.1 hsecond
    refine .inl ⟨v, included, x, y, hside, hincluded, hx, hy, ?_⟩
    have hfound : sideByCosines p v =
        p.learnSide v (sideOpposite x y included) (.sideByCosines v) := by
      simp only [sideByCosines, hside, hincluded, hx, hy]
    -- at another vertex the side is known, before and after
    have hknown : ∀ w, w ≠ v → (p.measurement.side w).isSome = true := by
      intro w hw
      rcases Vertex.eq_of_ne hw with rfl | rfl
      · exact hfirst
      · exact hsecond
    have hother : ∀ (q : Progress K) (w : Vertex), (q.measurement.side w).isSome = true →
        sideByCosines q w = q := by
      intro q w hw
      refine sideByCosines_of_not q fun h => ?_
      simp [h.1] at hw
    have hbefore : ∀ w, w ≠ v → sideByCosines p w = p := fun w hw => hother p w (hknown w hw)
    have hafter : ∀ w, sideByCosines (p.learnSide v (sideOpposite x y included)
        (.sideByCosines v)) w = p.learnSide v (sideOpposite x y included) (.sideByCosines v) := by
      intro w
      refine hother _ w ?_
      by_cases hw : w = v
      · simp [Progress.learnSide, hw]
      · simpa [Progress.learnSide, hw] using hknown w hw
    rw [sidesByCosines, if_neg (by simp [hsides, hangles])]
    cases v <;> simp [Vertex.all, hfound, hbefore, hafter]
  · have hnone : ∀ v, ¬ p.measurement.SideAngleSide v := not_exists.1 h
    refine .inr ⟨hnone, ?_⟩
    unfold sidesByCosines
    split
    · rfl
    · exact List.foldl_fixed' (fun v => sideByCosines_of_not p (hnone v)) _

theorem isEarly_sidesByCosines {p : Progress K} (h : p.IsEarly) : (sidesByCosines p).IsEarly := by
  rcases sidesByCosines_cases p with ⟨v, _, _, _, -, -, -, -, heq⟩ | ⟨-, heq⟩
  · rw [heq]
    exact h.append (.sideByCosines v) trivial _
  · rwa [heq]

end ThirdSide

/-! ## The rules for the angles -/

section Runs

variable {K : Type} {f : Progress K → Vertex → Except (Failure K) (Progress K)}

/-- From `p` to `q` the sides and the angles that were known have stayed as they were. -/
structure LearnsAngles (p q : Progress K) : Prop where
  sides : q.measurement.sides = p.measurement.sides
  angle : ∀ v x, p.measurement.angle v = some x → q.measurement.angle v = some x

theorem LearnsAngles.refl (p : Progress K) : LearnsAngles p p := ⟨rfl, fun _ _ h => h⟩

theorem LearnsAngles.trans {p q r : Progress K} (h : LearnsAngles p q) (h' : LearnsAngles q r) :
    LearnsAngles p r :=
  ⟨h'.sides.trans h.sides, fun v x hx => h'.angle v x (h.angle v x hx)⟩

/-- An angle that was unknown is found. -/
theorem learnsAngles_learnAngle {p : Progress K} {v : Vertex} (h : p.measurement.angle v = none)
    (x : K) (step : Step) : LearnsAngles p (p.learnAngle v x step) := by
  refine ⟨rfl, fun w y hy => ?_⟩
  have hw : w ≠ v := by
    rintro rfl
    simp [h] at hy
  simpa [Progress.learnAngle, hw] using hy

theorem LearnsAngles.side {p q : Progress K} (h : LearnsAngles p q) (v : Vertex) :
    q.measurement.side v = p.measurement.side v := by
  rw [Measurement.side, h.sides]
  rfl

/-- What holds of the vertices that are still to be visited holds, after a run, of none. -/
theorem run_visits (I : List Vertex → Progress K → Prop)
    (hstep : ∀ p v vs q, I (v :: vs) p → f p v = .ok q → I vs q) {vs : List Vertex}
    {p q : Progress K} (hp : I vs p) (h : vs.foldlM f p = .ok q) : I [] q := by
  induction vs generalizing p with
  | nil => exact Except.ok.inj h ▸ hp
  | cons v vs ih =>
    rw [List.foldlM_cons] at h
    obtain ⟨p', hp', h⟩ := bind_eq_ok.1 h
    exact ih (hstep p v vs p' hp hp') h

/-- What every step of a run keeps the run keeps. -/
theorem run_keeps {P : Progress K → Prop} (hstep : ∀ p v q, P p → f p v = .ok q → P q)
    {vs : List Vertex} {p q : Progress K} (hp : P p) (h : vs.foldlM f p = .ok q) : P q :=
  run_visits (fun _ => P) (fun p v _ q => hstep p v q) hp h

/-- Where every step finds the angle at its vertex, a run finds the angles at all its vertices. -/
theorem run_finds (hkeeps : ∀ p v q, f p v = .ok q → LearnsAngles p q)
    (hfinds : ∀ p v q, f p v = .ok q → (q.measurement.angle v).isSome = true) {vs : List Vertex}
    {p q : Progress K} (h : vs.foldlM f p = .ok q) :
    ∀ v ∈ vs, (q.measurement.angle v).isSome = true := by
  -- the angles at the vertices that have been visited are known
  have hvisited : ∀ v ∈ vs, v ∉ ([] : List Vertex) → (q.measurement.angle v).isSome = true := by
    refine run_visits (fun rest p => ∀ v ∈ vs, v ∉ rest → (p.measurement.angle v).isSome = true)
      (fun p w rest q hp hstep v hv hrest => ?_) (fun v hv hnot => absurd hv hnot) h
    by_cases hvw : v = w
    · exact hvw ▸ hfinds p w q hstep
    · obtain ⟨x, hx⟩ := Option.isSome_iff_exists.1 (hp v hv (by simp [hvw, hrest]))
      rw [(hkeeps p w q hstep).angle v x hx]
      rfl
  exact fun v hv => hvisited v hv List.not_mem_nil

/-- A run that fails has failed at a vertex. -/
theorem run_fails {vs : List Vertex} {p : Progress K} {failure : Failure K}
    (h : vs.foldlM f p = .error failure) : ∃ p v, f p v = .error failure := by
  induction vs generalizing p with
  | nil => cases h
  | cons v vs ih =>
    rw [List.foldlM_cons] at h
    rcases bind_eq_error.1 h with h | ⟨p', -, h⟩
    · exact ⟨p, v, h⟩
    · exact ih h

end Runs

section Cosines

variable {K : Type} [One K] [Add K] [Sub K] [Mul K] [Div K] [Neg K] [NatCast K] [LT K] [LE K]
  [DecidableLT K] [DecidableLE K] [Finiteness K] [Trigonometry K] {sides : PerVertex K}
  {p q : Progress K}

/-- An angle is known, or it is found from the two others, or from the sides. -/
theorem angleByCosines_cases {v : Vertex} (h : angleByCosines sides p v = .ok q) :
    ((p.measurement.angle v).isSome = true ∧ q = p) ∨
    (∃ x y, p.measurement.angle v = none ∧ p.measurement.angle v.others.1 = some x ∧
      p.measurement.angle v.others.2 = some y ∧
      q = p.learnAngle v (remainingAngle x - y) (.angleByOthers v)) ∨
    ∃ x, p.measurement.angle v = none ∧
      (p.measurement.angle v.others.1 = none ∨ p.measurement.angle v.others.2 = none) ∧
      angleBetween (sides.get v.others.1) (sides.get v.others.2) (sides.get v) = .ok x ∧
      q = p.learnAngle v x (.angleByCosines v) := by
  simp only [angleByCosines] at h
  split at h
  · next hangle =>
    exact .inl ⟨by simp [hangle], (Except.ok.inj h).symm⟩
  · next hangle hfirst hsecond =>
    exact .inr (.inl ⟨_, _, hangle, hfirst, hsecond, (Except.ok.inj h).symm⟩)
  · next hangle hothers =>
    obtain ⟨x, hx, heq⟩ := bind_eq_ok.1 h
    refine .inr (.inr ⟨x, hangle, ?_, hx, (Except.ok.inj heq).symm⟩)
    cases hfirst : p.measurement.angle v.others.1 with
    | none => exact .inl rfl
    | some x =>
      cases hsecond : p.measurement.angle v.others.2 with
      | none => exact .inr rfl
      | some y => exact absurd hsecond (hothers x y hfirst)

theorem learnsAngles_angleByCosines {v : Vertex} (h : angleByCosines sides p v = .ok q) :
    LearnsAngles p q := by
  rcases angleByCosines_cases h with ⟨-, rfl⟩ | ⟨_, _, hangle, -, -, rfl⟩ | ⟨_, hangle, -, -, rfl⟩
  · exact .refl _
  · exact learnsAngles_learnAngle hangle _ _
  · exact learnsAngles_learnAngle hangle _ _

theorem angle_angleByCosines {v : Vertex} (h : angleByCosines sides p v = .ok q) :
    (q.measurement.angle v).isSome = true := by
  rcases angleByCosines_cases h with ⟨hangle, rfl⟩ | ⟨_, _, -, -, -, rfl⟩ | ⟨_, -, -, -, rfl⟩
  · exact hangle
  · simp [Progress.learnAngle]
  · simp [Progress.learnAngle]

theorem isEarly_angleByCosines {v : Vertex} (hp : p.IsEarly)
    (h : angleByCosines sides p v = .ok q) : q.IsEarly := by
  rcases angleByCosines_cases h with ⟨-, rfl⟩ | ⟨_, _, -, -, -, rfl⟩ | ⟨_, -, -, -, rfl⟩
  · exact hp
  · exact hp.append (.angleByOthers v) trivial _
  · exact hp.append (.angleByCosines v) trivial _

/-- With all sides the angles are looked for at every vertex. -/
theorem anglesByCosines_of_sides
    (h : p.measurement.sides = ⟨some sides.a, some sides.b, some sides.c⟩) :
    anglesByCosines p = Vertex.all.foldlM (angleByCosines sides) p := by
  simp only [anglesByCosines, h]

/-- Without all sides no angle is looked for. -/
theorem anglesByCosines_of_not (h : ¬ p.measurement.SidesKnown) : anglesByCosines p = .ok p := by
  unfold anglesByCosines
  split
  · next a b c hsides =>
    refine absurd (fun v => ?_) h
    rw [Measurement.side, hsides]
    cases v <;> rfl
  · rfl

/-- From all sides all angles are found, and early. -/
theorem of_anglesByCosines (hsides : p.measurement.SidesKnown) (h : anglesByCosines p = .ok q) :
    LearnsAngles p q ∧ q.measurement.AnglesKnown ∧ (p.IsEarly → q.IsEarly) := by
  obtain ⟨sides, hsides⟩ := hsides.exists_sides
  rw [anglesByCosines_of_sides hsides] at h
  refine ⟨run_keeps (fun _ _ _ hp hstep => hp.trans (learnsAngles_angleByCosines hstep))
    (.refl p) h, fun v => ?_, fun hp => run_keeps (fun _ _ _ hp => isEarly_angleByCosines hp) hp h⟩
  exact run_finds (fun _ _ _ => learnsAngles_angleByCosines) (fun _ _ _ => angle_angleByCosines) h v
    (Vertex.mem_all v)

/-- Finding the angles of three sides fails only where the cosine at a vertex is checked. -/
theorem anglesByCosines_error_of_sides {failure : Failure K}
    (hsides : p.measurement.sides = ⟨some sides.a, some sides.b, some sides.c⟩)
    (h : anglesByCosines p = .error failure) :
    ∃ v : Vertex, angleBetween (sides.get v.others.1) (sides.get v.others.2) (sides.get v) =
      .error failure := by
  rw [anglesByCosines_of_sides hsides] at h
  obtain ⟨p, v, hstep⟩ := run_fails h
  simp only [angleByCosines] at hstep
  split at hstep
  · cases hstep
  · cases hstep
  · rcases bind_eq_error.1 hstep with hstep | ⟨_, -, hstep⟩
    · exact ⟨v, hstep⟩
    · cases hstep

/-- Finding angles fails only where a cosine is checked. -/
theorem anglesByCosines_error {failure : Failure K} (h : anglesByCosines p = .error failure) :
    ∃ x y z : K, angleBetween x y z = .error failure := by
  by_cases hsides : p.measurement.SidesKnown
  · obtain ⟨sides, hsides⟩ := hsides.exists_sides
    obtain ⟨v, hv⟩ := anglesByCosines_error_of_sides hsides h
    exact ⟨_, _, _, hv⟩
  · rw [anglesByCosines_of_not hsides] at h
    cases h

end Cosines

section Sines

variable {K : Type} [One K] [Add K] [Sub K] [Mul K] [Div K] [Neg K] [NatCast K] [LT K] [LE K]
  [DecidableLT K] [DecidableLE K] [Finiteness K] [Trigonometry K] {angle opposite : K}
  {p q : Progress K}

theorem angleBySines_of_known {v : Vertex} (h : (p.measurement.angle v).isSome = true) :
    angleBySines angle opposite p v = .ok p := by
  obtain ⟨x, hx⟩ := Option.isSome_iff_exists.1 h
  simp only [angleBySines, hx]

theorem learnsAngles_angleBySines {v : Vertex} (h : angleBySines angle opposite p v = .ok q) :
    LearnsAngles p q := by
  unfold angleBySines at h
  split at h
  · next hangle _ =>
    obtain ⟨x, -, heq⟩ := bind_eq_ok.1 h
    exact Except.ok.inj heq ▸ learnsAngles_learnAngle hangle x _
  · exact Except.ok.inj h ▸ .refl p

theorem learnsAngles_anglesBySinesFrom {v : Vertex} (h : anglesBySinesFrom p v = .ok q) :
    LearnsAngles p q := by
  unfold anglesBySinesFrom at h
  split at h
  · exact run_keeps (fun _ _ _ hp hstep => hp.trans (learnsAngles_angleBySines hstep)) (.refl p) h
  · exact Except.ok.inj h ▸ .refl p

theorem learnsAngles_anglesBySines (h : anglesBySines p = .ok q) : LearnsAngles p q :=
  run_keeps (fun _ _ _ hp hstep => hp.trans (learnsAngles_anglesBySinesFrom hstep)) (.refl p) h

/-- With all angles the law of sines finds nothing. -/
theorem anglesBySines_of_known (h : p.measurement.AnglesKnown) : anglesBySines p = .ok p := by
  have hfrom : ∀ v, anglesBySinesFrom p v = .ok p := by
    intro v
    unfold anglesBySinesFrom
    split
    · simp only [List.foldlM_cons, List.foldlM_nil, angleBySines_of_known (h _), ok_bind]
      rfl
    · rfl
  simp only [anglesBySines, Vertex.all, List.foldlM_cons, List.foldlM_nil, hfrom, ok_bind]
  rfl

/-- The law of sines fails only where a sine is checked. -/
theorem anglesBySines_error {failure : Failure K} (h : anglesBySines p = .error failure) :
    ∃ angle opposite side : K, angleOpposite angle opposite side = .error failure := by
  obtain ⟨p, v, hfrom⟩ := run_fails h
  unfold anglesBySinesFrom at hfrom
  split at hfrom
  · obtain ⟨p, w, hstep⟩ := run_fails hfrom
    unfold angleBySines at hstep
    split at hstep
    · rcases bind_eq_error.1 hstep with hstep | ⟨_, -, hstep⟩
      · exact ⟨_, _, _, hstep⟩
      · cases hstep
    · cases hstep
  · cases hfrom

end Sines

section LastAngle

variable {K : Type} [Zero K] [Add K] [Sub K] [Neg K] [NatCast K] {p : Progress K}

/-- With all angles there is no last one to be found. -/
theorem thirdAngle_of_known (h : p.measurement.AnglesKnown) : thirdAngle p = p := by
  simp only [thirdAngle]
  exact if_pos (by simp [h.knownAngles_eq])

theorem side_thirdAngle (p : Progress K) (v : Vertex) :
    (thirdAngle p).measurement.side v = p.measurement.side v := by
  simp only [thirdAngle]
  split
  · rfl
  · split <;> rfl

end LastAngle

end SchoolMath.Triangle
