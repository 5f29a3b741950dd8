import SchoolMath.Proofs.Triangle.Solve

/-!
# `Triangle.Trace` — the steps of a triangle that is found

The rule for the right angle is the only one that overwrites what is given. Every other rule looks for
what is unknown, sets it once, and takes one step that names it (`Progress.Records`): the rule for a
third side names the only side that is missing, and a run of the rule for the angles names the angles
that were unknown before it, in order, because the angle it finds at one vertex is none of those that
it still has to look for (`records_foldlM`). When a triangle is found the later rules find nothing. So
the steps are those of the right angle and then one for each quantity that was unknown behind it, sides
first, as `Measurement.solve_steps` says.
-/

namespace SchoolMath.Triangle

/-! ## What a step has found -/

/-- The side or the angle that a step has found, but for the hypotenuse. -/
def Step.found? : Step → Option Quantity
  | .sideByCosines v => some (.side v)
  | .angleByOthers v | .angleByCosines v | .angleBySines v | .angleBySum v => some (.angle v)
  | .rightAngle _ | .pythagoras _ | .perimeterAndArea => none

/-- The step has found `quantity`, and its text ends with the name of it. -/
structure Step.Names (step : Step) (quantity : Quantity) : Prop where
  found : step.found? = some quantity
  named : ∃ words, step.text = words ++ " " ++ quantity.name

/-- A step names what it has found. -/
theorem Step.names_of_found {step : Step} {quantity : Quantity} (h : step.found? = some quantity) :
    step.Names quantity := by
  refine ⟨h, ?_⟩
  cases step with
  | rightAngle | pythagoras | perimeterAndArea => cases h
  | sideByCosines v =>
    obtain rfl := Option.some.inj h
    exact ⟨"Law of Cosines to compute side", by cases v <;> decide⟩
  | angleByOthers v =>
    obtain rfl := Option.some.inj h
    exact ⟨"Used angle sum to compute", by cases v <;> decide⟩
  | angleByCosines v =>
    obtain rfl := Option.some.inj h
    exact ⟨"Law of Cosines to compute angle", by cases v <;> decide⟩
  | angleBySines v =>
    obtain rfl := Option.some.inj h
    exact ⟨"Law of Sines to compute", by cases v <;> decide⟩
  | angleBySum v =>
    obtain rfl := Option.some.inj h
    exact ⟨"Angle sum to compute", by cases v <;> decide⟩

/-! ## What is recorded -/

section Records

variable {K : Type} {p q r : Progress K} {quantities others : List Quantity}

/-- From `p` to `q` one step was taken for each of the quantities, in their order, and no other. -/
def Progress.Records (p q : Progress K) (quantities : List Quantity) : Prop :=
  ∃ found, q.steps = p.steps ++ found ∧ List.Forall₂ Step.Names found quantities

theorem Progress.Records.refl (p : Progress K) : p.Records p [] :=
  ⟨[], (List.append_nil _).symm, .nil⟩

theorem Progress.Records.trans (h : p.Records q quantities) (h' : q.Records r others) :
    p.Records r (quantities ++ others) := by
  obtain ⟨found, hq, hfound⟩ := h
  obtain ⟨found', hr, hfound'⟩ := h'
  refine ⟨found ++ found', ?_, List.rel_append hfound hfound'⟩
  rw [hr, hq, List.append_assoc]

theorem records_learnSide {step : Step} {v : Vertex} (h : step.found? = some (.side v)) (x : K) :
    p.Records (p.learnSide v x step) [.side v] :=
  ⟨[step], rfl, .cons (Step.names_of_found h) .nil⟩

theorem records_learnAngle {step : Step} {v : Vertex} (h : step.found? = some (.angle v)) (x : K) :
    p.Records (p.learnAngle v x step) [.angle v] :=
  ⟨[step], rfl, .cons (Step.names_of_found h) .nil⟩

end Records

/-! ## The right angle -/

namespace Measurement

variable {K : Type} {m : Measurement K}

/-- The vertex of the right angle, if the sides that form it are known. -/
def legsAt? (m : Measurement K) : Option Vertex :=
  m.rightAt.filter fun v => (m.side v.others.1).isSome && (m.side v.others.2).isSome

theorem legsAt?_eq_some_iff {v : Vertex} : m.legsAt? = some v ↔ m.HasLegs v := by
  simp [legsAt?, HasLegs, Option.filter_eq_some_iff]

/-- What is unknown when the hypotenuse and the right angle opposite it are found, sides first. -/
def unknown (m : Measurement K) : List Quantity :=
  m.missing.filter fun quantity => ∀ v ∈ m.legsAt?, quantity ≠ .side v ∧ quantity ≠ .angle v

end Measurement

section RightAngle

variable {K : Type} [NatCast K] [Trigonometry K] (m : Measurement K)

/-- The right angle is one step, and the hypotenuse another one. -/
theorem steps_completeRightAngle : (completeRightAngle ⟨m, []⟩).steps =
    m.rightAt.toList.map .rightAngle ++ m.legsAt?.toList.map .pythagoras := by
  unfold completeRightAngle Measurement.legsAt?
  cases hright : m.rightAt with
  | none => rfl
  | some v =>
    cases hx : m.side v.others.1 with
    | none => simp [hx]
    | some x => cases hy : m.side v.others.2 <;> simp [hx, hy, Option.filter]

/-- Behind the right angle the hypotenuse and the angle opposite it are no longer missing. -/
theorem missing_completeRightAngle :
    (completeRightAngle ⟨m, []⟩).measurement.missing = m.unknown := by
  rcases completeRightAngle_cases ⟨m, []⟩ with ⟨v, x, y, hright, hx, hy, hm⟩ | ⟨hlegs, hm⟩
  · have hat : m.legsAt? = some v :=
      Measurement.legsAt?_eq_some_iff.2 ⟨hright, by simp [hx], by simp [hy]⟩
    have hside : ∀ w, ((completeRightAngle ⟨m, []⟩).measurement.side w).isNone =
        (decide (w ≠ v) && (m.side w).isNone) := by
      intro w
      rw [hm, Measurement.side_withAngle]
      by_cases hw : w = v
      · simp [hw]
      · simp [hw]
    have hangle : ∀ w, ((completeRightAngle ⟨m, []⟩).measurement.angle w).isNone =
        (decide (w ≠ v) && (m.angle w).isNone) := by
      intro w
      rw [hm]
      by_cases hw : w = v
      · simp [hw]
      · simp [hw]
    simp only [Measurement.missing, Measurement.unknown, hat, hside, hangle]
    rw [List.filter_append, List.filter_map, List.filter_map, List.filter_filter, List.filter_filter]
    simp
  · have hat : m.legsAt? = none := by
      rw [Option.eq_none_iff_forall_ne_some]
      intro v hv
      exact hlegs v (Measurement.legsAt?_eq_some_iff.1 hv)
    rw [hm, Measurement.unknown, hat]
    exact (List.filter_eq_self.2 fun quantity _ => by simp).symm

end RightAngle

/-! ## The third side -/

section ThirdSide

variable {K : Type} [Add K] [Sub K] [Mul K] [NatCast K] [SquareRoot K] [Trigonometry K]
  {p : Progress K}

/-- If all sides are known in the end, the side that was missing is named. -/
theorem records_sidesByCosines (h : (sidesByCosines p).measurement.SidesKnown) :
    p.Records (sidesByCosines p)
      ((Vertex.all.filter fun v => (p.measurement.side v).isNone).map .side) := by
  rcases sidesByCosines_cases p with ⟨v, included, x, y, hside, -, hx, hy, heq⟩ | ⟨-, heq⟩
  · have hmissing : (Vertex.all.filter fun w => (p.measurement.side w).isNone) = [v] := by
      have hothers : ∀ w, w ≠ v → (p.measurement.side w).isNone = false := by
        intro w hw
        rcases Vertex.eq_of_ne hw with rfl | rfl
        · simp [hx]
        · simp [hy]
      cases v <;> simp [Vertex.all, hside, hothers]
    rw [heq, hmissing]
    exact records_learnSide rfl _
  · have hnone : (Vertex.all.filter fun v => (p.measurement.side v).isNone) = [] := by
      rw [List.filter_eq_nil_iff]
      intro v _ hside
      rw [heq] at h
      have hknown := h v
      rw [Option.isNone_iff_eq_none.1 hside] at hknown
      cases hknown
    rw [heq, hnone]
    exact .refl p

theorem angle_sidesByCosines (p : Progress K) (v : Vertex) :
    (sidesByCosines p).measurement.angle v = p.measurement.angle v := by
  rcases sidesByCosines_cases p with ⟨_, _, _, _, -, -, -, -, heq⟩ | ⟨-, heq⟩
  · rw [heq]
    rfl
  · rw [heq]

end ThirdSide

/-! ## The angles -/

section Angles

variable {K : Type} [One K] [Add K] [Sub K] [Mul K] [Div K] [Neg K] [NatCast K] [LT K] [LE K]
  [DecidableLT K] [DecidableLE K] [Finiteness K] [Trigonometry K] {sides : PerVertex K}
  {p q : Progress K}

/-- An angle is known, or it is found in one step that names it. -/
theorem angleByCosines_learns {v : Vertex} (h : angleByCosines sides p v = .ok q) :
    ((p.measurement.angle v).isSome = true ∧ q = p) ∨
      p.measurement.angle v = none ∧
        ∃ x step, step.found? = some (.angle v) ∧ q = p.learnAngle v x step := by
  rcases angleByCosines_cases h with hknown | ⟨_, _, hangle, -, -, heq⟩ | ⟨_, hangle, -, -, heq⟩
  · exact .inl hknown
  · exact .inr ⟨hangle, _, _, rfl, heq⟩
  · exact .inr ⟨hangle, _, _, rfl, heq⟩

/-- A run names the angles that were unknown before it. -/
theorem records_foldlM {vs : List Vertex} (hnodup : vs.Nodup)
    (h : vs.foldlM (angleByCosines sides) p = .ok q) :
    p.Records q ((vs.filter fun v => (p.measurement.angle v).isNone).map .angle) := by
  induction vs generalizing p with
  | nil =>
    obtain rfl := Except.ok.inj h
    exact .refl p
  | cons v vs ih =>
    obtain ⟨hv, hnodup⟩ := List.nodup_cons.1 hnodup
    rw [List.foldlM_cons] at h
    obtain ⟨p', hstep, htail⟩ := bind_eq_ok.1 h
    rcases angleByCosines_learns hstep with ⟨hknown, rfl⟩ | ⟨hangle, x, step, hfound, rfl⟩
    · have hskip : ¬ (p'.measurement.angle v).isNone = true := by
        simpa [Option.isSome_iff_ne_none] using hknown
      rw [List.filter_cons, if_neg hskip]
      exact ih hnodup htail
    · -- the angle that is found is none of those still to be visited
      have hothers : (vs.filter fun w => ((p.learnAngle v x step).measurement.angle w).isNone) =
          vs.filter fun w => (p.measurement.angle w).isNone := by
        apply List.filter_congr
        intro w hw
        have hne : w ≠ v := ne_of_mem_of_not_mem hw hv
        simp [Progress.learnAngle, hne]
      have hrest := ih hnodup htail
      rw [hothers] at hrest
      rw [List.filter_cons_of_pos (by simp [hangle]), List.map_cons]
      exact (records_learnAngle hfound x).trans hrest

/-- With all sides, finding the angles names those that were unknown. -/
theorem records_anglesByCosines (hsides : p.measurement.SidesKnown)
    (h : anglesByCosines p = .ok q) :
    p.Records q ((Vertex.all.filter fun v => (p.measurement.angle v).isNone).map .angle) := by
  obtain ⟨sides, hsides⟩ := hsides.exists_sides
  rw [anglesByCosines_of_sides hsides] at h
  exact records_foldlM (by decide) h

end Angles

/-! ## Solving -/

namespace Measurement

variable {K : Type} [Zero K] [One K] [Add K] [Sub K] [Mul K] [Div K] [Neg K] [NatCast K] [LT K]
  [LE K] [DecidableLT K] [DecidableLE K] [SquareRoot K] [Finiteness K] [Trigonometry K]
  {m : Measurement K}

omit [Zero K] in
/-- The rules for the sides and for the angles of three sides name what is missing behind the right
angle. -/
theorem records_of_anglesByCosines {p : Progress K} (hm : m.Determined)
    (h : anglesByCosines m.withSides = .ok p) :
    (completeRightAngle ⟨m, []⟩).Records p m.unknown := by
  have hsides := sidesKnown_withSides_iff.2 hm
  have hthird := records_sidesByCosines (p := completeRightAngle ⟨m, []⟩) hsides
  have hangles := records_anglesByCosines hsides h
  have hsame : ∀ v, m.withSides.measurement.angle v =
      (completeRightAngle ⟨m, []⟩).measurement.angle v := angle_sidesByCosines _
  simp only [hsame] at hangles
  rw [← missing_completeRightAngle]
  exact hthird.trans hangles

/-- When a triangle is found, the legs of a right angle have given its hypotenuse, everything else that
was given is as it was, and there is one step for the right angle, one for the hypotenuse, one for each
quantity that was unknown behind it, and the last one. -/
theorem solve_steps {solved : Solved K} {steps : List Step} (h : m.solve = .ok (solved, steps)) :
    (∀ v x y, m.rightAt = some v → m.side v.others.1 = some x → m.side v.others.2 = some y →
      solved.sides.get v = hypotenuse x y ∧ solved.angles.get v = ((90 : Nat) : K)) ∧
    (∀ v x, m.side v = some x → ¬ m.HasLegs v → solved.sides.get v = x) ∧
    (∀ v x, m.angle v = some x → ¬ m.HasLegs v → solved.angles.get v = x) ∧
    ∃ found, List.Forall₂ Step.Names found m.unknown ∧
      steps = m.rightAt.toList.map .rightAngle ++ m.legsAt?.toList.map .pythagoras ++ found ++
        [.perimeterAndArea] := by
  have hside : ∀ v x, m.withSides.measurement.side v = some x → solved.sides.get v = x := by
    intro v x hx
    rw [side_of_solve h] at hx
    exact Option.some.inj hx
  refine ⟨?_, ?_, ?_, ?_⟩
  · intro v x y hright hx hy
    obtain ⟨hhypotenuse, hninety⟩ := withSides_of_legs hright hx hy
    exact ⟨hside v _ hhypotenuse, angle_of_known h hninety⟩
  · intro v x hx hv
    exact hside v x ((withSides_keeps hv).1 x hx)
  · intro v x hx hv
    exact angle_of_known h ((withSides_keeps hv).2.trans hx)
  · obtain ⟨-, hm, p, hcosines, -, -, -, -, rfl⟩ := of_solve h
    obtain ⟨found, hsteps, hnames⟩ := records_of_anglesByCosines hm hcosines
    refine ⟨found, hnames, ?_⟩
    rw [hsteps, steps_completeRightAngle]

/-- Of two legs the hypotenuse is found, and then the two angles. -/
theorem solve_steps_legs : ∃ solved steps, (legs (3 : ℝ) 4).solve = .ok (solved, steps) ∧
    solved.sides.get .C = hypotenuse 3 4 ∧ solved.sides.get .A = 3 ∧
    ∃ first second, first.Names (.angle .A) ∧ second.Names (.angle .B) ∧
      steps = [.rightAngle .C, .pythagoras .C, first, second, .perimeterAndArea] := by
  obtain ⟨solved, steps, hsolve⟩ := solve_legs
  obtain ⟨hlegs, hsides, -, found, hnames, hsteps⟩ := solve_steps hsolve
  have hA : ¬ (legs (3 : ℝ) 4).HasLegs .A := by
    rintro ⟨hright, -, -⟩
    cases hright
  have hunknown : (legs (3 : ℝ) 4).unknown = [.angle .A, .angle .B] := rfl
  rw [hunknown] at hnames
  cases hnames with
  | @cons first _ _ _ hfirst hnames =>
    cases hnames with
    | @cons second _ _ _ hsecond hnil =>
      cases hnil
      exact ⟨solved, steps, hsolve, (hlegs .C 3 4 rfl rfl rfl).1, hsides .A 3 rfl hA, first, second,
        hfirst, hsecond, hsteps⟩

end Measurement

end SchoolMath.Triangle
