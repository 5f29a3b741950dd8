import SchoolMath.Proofs.Number.Real
import SchoolMath.Proofs.Outcome
import SchoolMath.Triangle.Rules

/-!
# `Triangle.Angles` — the angle between two lengths opposite a third

Over the reals the law of cosines gives an angle for any three lengths: where no triangle has them,
the cosine is out of its range and the angle is 0 or 180. So two such angles always leave something
of the angle sum (`angleFrom_add_le`). The side that is found from an angle, and the hypotenuse, give
this angle back (`angleFrom_sideOpposite`, `angleFrom_hypotenuse`).
-/

namespace SchoolMath.Triangle

/-! ## Arccosines in degrees -/

theorem degrees_pos : 0 < 180 / Real.pi := div_pos (by norm_num) Real.pi_pos

theorem pi_mul_degrees : Real.pi * (180 / Real.pi) = 180 := mul_div_cancel₀ _ Real.pi_ne_zero

theorem arccosine_nonneg (ratio : ℝ) : 0 ≤ arccosine ratio :=
  mul_nonneg (Real.arccos_nonneg ratio) degrees_pos.le

theorem arccosine_le (ratio : ℝ) : arccosine ratio ≤ 180 := by
  have h := mul_le_mul_of_nonneg_right (Real.arccos_le_pi ratio) degrees_pos.le
  rwa [pi_mul_degrees] at h

theorem arccosine_of_one_le {ratio : ℝ} (h : 1 ≤ ratio) : arccosine ratio = 0 := by
  show Real.arccos ratio * _ = 0
  rw [Real.arccos_of_one_le h, zero_mul]

theorem arccosine_of_le_neg_one {ratio : ℝ} (h : ratio ≤ -1) : arccosine ratio = 180 := by
  show Real.arccos ratio * _ = 180
  rw [Real.arccos_of_le_neg_one h, pi_mul_degrees]

theorem arccosine_zero : arccosine (0 : ℝ) = 90 := by
  show Real.arccos 0 * _ = 90
  rw [Real.arccos_zero, div_mul_eq_mul_div, pi_mul_degrees]
  norm_num

/-- The arccosine inverts the cosine between 0 and 180. -/
theorem arccosine_cosine {angle : ℝ} (h0 : 0 ≤ angle) (h180 : angle ≤ 180) :
    arccosine (cosine angle) = angle := by
  have hpi := Real.pi_pos
  show Real.arccos (Real.cos (angle * (Real.pi / 180))) * (180 / Real.pi) = angle
  rw [Real.arccos_cos (by positivity)]
  · field_simp
  · calc angle * (Real.pi / 180) ≤ 180 * (Real.pi / 180) :=
          mul_le_mul_of_nonneg_right h180 (by positivity)
      _ = Real.pi := by ring

/-- Cosines whose sum is not negative have arccosines that leave something of the angle sum. -/
theorem arccosine_add_le {ratio ratio' : ℝ} (h : 0 ≤ ratio + ratio') :
    arccosine ratio + arccosine ratio' ≤ 180 := by
  have harccos : Real.arccos ratio ≤ Real.arccos (-ratio') :=
    Real.arccos_le_arccos (neg_le_iff_add_nonneg.2 h)
  rw [Real.arccos_neg] at harccos
  show Real.arccos ratio * (180 / Real.pi) + Real.arccos ratio' * (180 / Real.pi) ≤ 180
  calc Real.arccos ratio * (180 / Real.pi) + Real.arccos ratio' * (180 / Real.pi)
      = (Real.arccos ratio + Real.arccos ratio') * (180 / Real.pi) := by ring
    _ ≤ Real.pi * (180 / Real.pi) :=
        mul_le_mul_of_nonneg_right (by linarith) degrees_pos.le
    _ = 180 := pi_mul_degrees

/-! ## The law of cosines -/

/-- The cosine of the angle between the sides `x` and `y`, opposite `z`. -/
noncomputable def cosineFrom (x y z : ℝ) : ℝ :=
  (x * x + y * y - z * z) / (((2 : Nat) : ℝ) * x * y)

/-- The angle between the sides `x` and `y`, opposite `z`. -/
noncomputable def angleFrom (x y z : ℝ) : ℝ := arccosine (cosineFrom x y z)

variable {x y z : ℝ}

theorem angleFrom_nonneg (x y z : ℝ) : 0 ≤ angleFrom x y z := arccosine_nonneg _

theorem angleFrom_le (x y z : ℝ) : angleFrom x y z ≤ 180 := arccosine_le _

theorem angleFrom_comm (x y z : ℝ) : angleFrom x y z = angleFrom y x z := by
  unfold angleFrom cosineFrom
  congr 2 <;> ring

/-- A cosine that is moved to the end of its range has the same arccosine. -/
theorem arccosine_of_unitRatio {ratio ratio' : ℝ} (h : unitRatio ratio = .ok ratio') :
    arccosine ratio' = arccosine ratio := by
  simp only [unitRatio] at h
  split at h
  · cases h
  · split at h
    · obtain rfl := Except.ok.inj h
      split
      · next hlow => rw [arccosine_of_le_neg_one le_rfl, arccosine_of_le_neg_one hlow.le]
      · split
        · next hhigh => rw [arccosine_of_one_le le_rfl, arccosine_of_one_le hhigh.le]
        · rfl
    · cases h

/-- A cosine in its range passes the check. -/
theorem unitRatio_of_mem {ratio : ℝ} (hlow : -1 ≤ ratio) (hhigh : ratio ≤ 1) :
    unitRatio ratio = .ok ratio := by
  have htolerance : (0 : ℝ) < ratioTolerance := by
    unfold ratioTolerance
    positivity
  have hfinite : (!isFinite ratio) = false := rfl
  rw [unitRatio, hfinite, if_neg Bool.false_ne_true, if_pos ⟨by linarith, by linarith⟩,
    if_neg hlow.not_gt, if_neg hhigh.not_gt]

/-- What the law of cosines finds is the angle. -/
theorem eq_angleFrom {angle : ℝ} (h : angleBetween x y z = .ok angle) : angle = angleFrom x y z := by
  obtain ⟨ratio, hratio, heq⟩ := bind_eq_ok.1 h
  rw [← Except.ok.inj heq, arccosine_of_unitRatio hratio]
  rfl

/-- With a cosine in its range the law of cosines finds the angle. -/
theorem angleBetween_of_mem (hlow : -1 ≤ cosineFrom x y z) (hhigh : cosineFrom x y z ≤ 1) :
    angleBetween x y z = .ok (angleFrom x y z) := by
  have hratio := unitRatio_of_mem hlow hhigh
  unfold cosineFrom at hratio
  rw [angleBetween, hratio]
  rfl

/-- Beside a side that is not shorter than the two others together the angles are 0. -/
theorem angleFrom_of_add_le (hx : 0 ≤ x) (hy : 0 < y) (h : x + y ≤ z) : angleFrom y z x = 0 := by
  have hz : 0 < z := by linarith
  refine arccosine_of_one_le ?_
  rw [cosineFrom, le_div_iff₀ (by positivity)]
  push_cast
  nlinarith

/-- Of sides none of which is longer than the others together, two cosines are not negative in sum.
-/
theorem cosineFrom_add_nonneg (hx : 0 ≤ x) (hy : 0 < y) (hz : 0 ≤ z) (hlong : z ≤ x + y)
    (hlong' : x ≤ y + z) : 0 ≤ cosineFrom x y z + cosineFrom y z x := by
  rcases hx.eq_or_lt with rfl | hx
  · -- a cosine beside a side without length is zero
    simp only [cosineFrom, mul_zero, zero_mul, div_zero, zero_add, sub_zero]
    positivity
  rcases hz.eq_or_lt with rfl | hz
  · simp only [cosineFrom, mul_zero, div_zero, add_zero, sub_zero]
    positivity
  have hsum : cosineFrom x y z + cosineFrom y z x =
      (x + z) * (x + y - z) * (y + z - x) / (2 * x * y * z) := by
    unfold cosineFrom
    push_cast
    field_simp
    ring
  rw [hsum]
  exact div_nonneg (mul_nonneg (mul_nonneg (by positivity) (by linarith)) (by linarith))
    (by positivity)

/-- Two of the angles leave something of the angle sum, whatever the sides are. -/
theorem angleFrom_add_le (hx : 0 ≤ x) (hy : 0 < y) (hz : 0 ≤ z) :
    angleFrom x y z + angleFrom y z x ≤ 180 := by
  by_cases hlong : x + y ≤ z
  · rw [angleFrom_of_add_le hx hy hlong, add_zero]
    exact angleFrom_le _ _ _
  by_cases hlong' : z + y ≤ x
  · rw [angleFrom_comm, angleFrom_of_add_le hz hy hlong', zero_add]
    exact angleFrom_le _ _ _
  · exact arccosine_add_le (cosineFrom_add_nonneg hx hy hz (by linarith) (by linarith))

/-- The cosine of which the law of cosines makes a third side is the cosine from this side. -/
theorem cosineFrom_sqrt {c : ℝ} (hx : 0 < x) (hy : 0 < y) (hc : c ≤ 1) :
    cosineFrom x y (Real.sqrt (x * x + y * y - ((2 : Nat) : ℝ) * x * y * c)) = c := by
  have hsquare : 0 ≤ x * x + y * y - ((2 : Nat) : ℝ) * x * y * c := by
    have hxy : x * y * c ≤ x * y * 1 := mul_le_mul_of_nonneg_left hc (by positivity)
    push_cast
    nlinarith [sq_nonneg (x - y)]
  rw [cosineFrom, Real.mul_self_sqrt hsquare]
  push_cast
  field_simp
  ring

/-- The side that is found from an angle lies opposite this angle. -/
theorem angleFrom_sideOpposite {angle : ℝ} (hx : 0 < x) (hy : 0 < y) (h0 : 0 ≤ angle)
    (h180 : angle ≤ 180) : angleFrom x y (sideOpposite x y angle) = angle := by
  have hratio : cosineFrom x y (sideOpposite x y angle) = cosine angle :=
    cosineFrom_sqrt hx hy (Real.cos_le_one _)
  rw [angleFrom, hratio, arccosine_cosine h0 h180]

/-- The hypotenuse lies opposite a right angle. -/
theorem angleFrom_hypotenuse (x y : ℝ) : angleFrom x y (hypotenuse x y) = 90 := by
  have hsquare : 0 ≤ x * x + y * y := add_nonneg (mul_self_nonneg x) (mul_self_nonneg y)
  have hside : hypotenuse x y * hypotenuse x y = x * x + y * y := Real.mul_self_sqrt hsquare
  have hratio : cosineFrom x y (hypotenuse x y) = 0 := by
    rw [cosineFrom, hside, sub_self, zero_div]
  rw [angleFrom, hratio, arccosine_zero]

end SchoolMath.Triangle
