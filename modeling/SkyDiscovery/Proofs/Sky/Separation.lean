import Mathlib.Analysis.InnerProductSpace.PiL2
import Mathlib.Analysis.SpecialFunctions.Trigonometric.Bounds
import Mathlib.Geometry.Euclidean.Angle.Unoriented.Basic
import SkyDiscovery.Proofs.Sky.Longitude
import SkyDiscovery.Sky.Position

/-!
# Separations on the sphere

The separation of two positions is the angle between their directions in space.

* `separation_eq`: the angle that is taken from the chord is the great-circle angle.
* `cos_greatCircle`: its cosine by the latitudes and the difference of longitudes.
* `abs_lat_sub_le`: the latitudes differ by the angle at most.
* `abs_lon_mul_cos_lt`: so do the longitudes, when their difference is shrunk by the cosine of the
  farthest latitude of the circle around the first position.
* `abs_lon_mul_cos_le_of_band`: between two parallels the shrunk difference is little more than the
  angle, also when the circle goes over a pole.
-/

namespace SkyDiscovery

open Real

/-! ## Two points of the sphere

Angles are in radians here: `lat` and `lat'` are the latitudes of two points, `turn` is the
difference of their longitudes and `angle` is the angle between them. -/

section

variable {lat lat' turn angle : ℝ}

theorem cos_add_mul_cos_sub (x y : ℝ) : cos (x + y) * cos (x - y) = cos x ^ 2 - sin y ^ 2 := by
  rw [cos_add, cos_sub]
  linear_combination cos x ^ 2 * sin_sq_add_cos_sq y - sin y ^ 2 * sin_sq_add_cos_sq x

theorem cos_sq_add_sin_sq_le (hlat : 0 ≤ lat) (hangle : 0 ≤ angle) (hpole : lat + angle ≤ π / 2) :
    cos (lat + angle) ^ 2 + sin angle ^ 2 ≤ cos lat ^ 2 := by
  have hnonneg : 0 ≤ cos (lat + angle) :=
    cos_nonneg_of_neg_pi_div_two_le_of_le (by linarith [pi_pos]) hpole
  have hle : cos (lat + angle) ≤ cos (lat - angle) := by
    rw [← cos_abs (lat - angle)]
    refine cos_le_cos_of_nonneg_of_le_pi (abs_nonneg _) (by linarith [pi_pos]) ?_
    exact abs_le.2 ⟨by linarith, by linarith⟩
  nlinarith [cos_add_mul_cos_sub lat angle, mul_le_mul_of_nonneg_left hle hnonneg]

/-- The angle has a part along the parallel of the second point and a part along its meridian. -/
theorem sin_sq_eq (h : cos angle = sin lat * sin lat' + cos lat * cos lat' * cos turn) :
    sin angle ^ 2 =
      (cos lat * sin turn) ^ 2 + (sin lat * cos lat' - cos lat * sin lat' * cos turn) ^ 2 := by
  linear_combination sin_sq_add_cos_sq angle -
    (cos angle + (sin lat * sin lat' + cos lat * cos lat' * cos turn)) * h -
    (sin lat ^ 2 + cos lat ^ 2 * cos turn ^ 2) * sin_sq_add_cos_sq lat' - sin_sq_add_cos_sq lat -
    cos lat ^ 2 * sin_sq_add_cos_sq turn

theorem cos_mul_cos_nonneg (hlat : |lat| ≤ π / 2) (hlat' : |lat'| ≤ π / 2) :
    0 ≤ cos lat * cos lat' :=
  mul_nonneg (cos_nonneg_of_mem_Icc (abs_le.1 hlat)) (cos_nonneg_of_mem_Icc (abs_le.1 hlat'))

/-- A circle that does not reach a pole goes less than a quarter turn to either side. -/
theorem cos_turn_pos (hlat : |lat| ≤ π / 2) (hlat' : |lat'| ≤ π / 2) (hangle : 0 ≤ angle)
    (hpole : |lat| + angle < π / 2)
    (h : cos angle = sin lat * sin lat' + cos lat * cos lat' * cos turn) : 0 < cos turn := by
  have hsin : sin lat * sin lat' ≤ sin |lat| := by
    calc sin lat * sin lat' ≤ |sin lat| * |sin lat'| := by
          rw [← abs_mul]
          exact le_abs_self _
      _ ≤ |sin lat| := mul_le_of_le_one_right (abs_nonneg _) (abs_sin_le_one _)
      _ = sin |lat| := abs_sin_eq_sin_abs_of_abs_le_pi (by linarith [pi_pos])
  have hcos : sin |lat| < cos angle := by
    rw [← cos_pi_div_two_sub]
    exact cos_lt_cos_of_nonneg_of_le_pi hangle (by linarith [abs_nonneg lat, pi_pos])
      (by linarith)
  exact pos_of_mul_pos_right (by linarith) (cos_mul_cos_nonneg hlat hlat')

theorem abs_lat_sub_le_angle (hlat : |lat| ≤ π / 2) (hlat' : |lat'| ≤ π / 2) (hangle : 0 ≤ angle)
    (h : cos angle = sin lat * sin lat' + cos lat * cos lat' * cos turn) :
    |lat' - lat| ≤ angle := by
  have hcos : cos angle ≤ cos |lat' - lat| := by
    have hle := mul_le_mul_of_nonneg_left (cos_le_one turn) (cos_mul_cos_nonneg hlat hlat')
    rw [cos_abs, cos_sub]
    linarith
  have hpi : |lat' - lat| ≤ π := by
    rw [abs_le] at hlat hlat' ⊢
    constructor <;> linarith
  by_contra hlt
  exact absurd hcos (not_le.2 (cos_lt_cos_of_nonneg_of_le_pi hangle hpi (not_le.1 hlt)))

/-- The difference of longitudes, shrunk by the cosine of the farthest latitude of the circle, does
not exceed the sine of the angle. -/
theorem abs_turn_mul_cos_le (hlat : |lat| ≤ π / 2) (hlat' : |lat'| ≤ π / 2) (hturn : |turn| ≤ π)
    (hangle : 0 ≤ angle) (hpole : |lat| + angle < π / 2)
    (h : cos angle = sin lat * sin lat' + cos lat * cos lat' * cos turn) :
    |turn| * cos (|lat| + angle) ≤ sin angle := by
  have hcosTurn := cos_turn_pos hlat hlat' hangle hpole h
  have hquarter : |turn| < π / 2 := by
    by_contra hle
    rw [← cos_abs] at hcosTurn
    linarith [cos_nonpos_of_pi_div_two_le_of_le (not_lt.1 hle) (by linarith [pi_pos])]
  have hsinTurn : 0 ≤ sin |turn| := sin_nonneg_of_nonneg_of_le_pi (abs_nonneg _) hturn
  have hsinAngle : 0 ≤ sin angle :=
    sin_nonneg_of_nonneg_of_le_pi hangle (by linarith [abs_nonneg lat, pi_pos])
  have hcosEdge : 0 < cos (|lat| + angle) :=
    cos_pos_of_mem_Ioo ⟨by linarith [abs_nonneg lat, pi_pos], hpole⟩
  have htan : |turn| * cos turn ≤ sin |turn| := by
    have hle := le_tan (abs_nonneg turn) hquarter
    rwa [tan_eq_sin_div_cos, cos_abs, le_div_iff₀ hcosTurn] at hle
  -- By the sine rule the turn is at most that of the tangent from the pole to the circle.
  have hrule : cos lat ^ 2 * sin turn ^ 2 ≤ sin angle ^ 2 := by
    rw [sin_sq_eq h, mul_pow]
    exact le_add_of_nonneg_right (sq_nonneg _)
  have htangent : cos (|lat| + angle) * sin |turn| ≤ sin angle * cos turn := by
    refine le_of_sq_le_sq ?_ (mul_nonneg hsinAngle hcosTurn.le)
    have hbound := cos_sq_add_sin_sq_le (abs_nonneg lat) hangle hpole.le
    rw [cos_abs] at hbound
    have hsq : sin |turn| ^ 2 = sin turn ^ 2 := by
      rw [← abs_sin_eq_sin_abs_of_abs_le_pi hturn, sq_abs]
    rw [mul_pow, mul_pow, hsq, cos_sq' turn]
    nlinarith [mul_le_mul_of_nonneg_right hbound (sq_nonneg (sin turn))]
  have hchain : |turn| * cos (|lat| + angle) * cos turn ≤ sin angle * cos turn := by
    calc |turn| * cos (|lat| + angle) * cos turn
        = cos (|lat| + angle) * (|turn| * cos turn) := by ring
      _ ≤ cos (|lat| + angle) * sin |turn| := mul_le_mul_of_nonneg_left htan hcosEdge.le
      _ ≤ sin angle * cos turn := htangent
  exact le_of_mul_le_mul_right hchain hcosTurn

/-- Between the parallels of a latitude `edge` the difference of longitudes, shrunk by the cosine of
that latitude, is at most half of pi times the angle. -/
theorem abs_turn_mul_cos_le_of_band {edge : ℝ} (hlat : |lat| ≤ edge) (hlat' : |lat'| ≤ edge)
    (hedge : edge ≤ π / 2) (hturn : |turn| ≤ π) (hangle : 0 ≤ angle)
    (h : cos angle = sin lat * sin lat' + cos lat * cos lat' * cos turn) :
    |turn| * cos edge ≤ π / 2 * angle := by
  have hcosEdge : 0 ≤ cos edge :=
    cos_nonneg_of_neg_pi_div_two_le_of_le (by linarith [abs_nonneg lat, pi_pos]) hedge
  have hcos : ∀ x, |x| ≤ edge → cos edge ≤ cos x := by
    intro x hx
    rw [← cos_abs x]
    exact cos_le_cos_of_nonneg_of_le_pi (abs_nonneg x) (by linarith [pi_pos]) hx
  have hproduct : cos edge * cos edge ≤ cos lat * cos lat' :=
    mul_le_mul (hcos lat hlat) (hcos lat' hlat') hcosEdge (hcosEdge.trans (hcos lat hlat))
  have hturnBound : 2 / π ^ 2 * turn ^ 2 ≤ 1 - cos turn := by
    linarith [cos_le_one_sub_mul_cos_sq hturn]
  have hparallels : cos lat * cos lat' * (1 - cos turn) ≤ 1 - cos angle := by
    have hone := cos_le_one (lat - lat')
    rw [cos_sub] at hone
    rw [h]
    linarith
  have hsquares : cos edge * cos edge * (2 / π ^ 2 * turn ^ 2) ≤ angle ^ 2 / 2 := by
    calc cos edge * cos edge * (2 / π ^ 2 * turn ^ 2)
        ≤ cos lat * cos lat' * (1 - cos turn) :=
          mul_le_mul hproduct hturnBound (by positivity) (by nlinarith)
      _ ≤ 1 - cos angle := hparallels
      _ ≤ angle ^ 2 / 2 := by linarith [@one_sub_sq_div_two_le_cos angle]
  refine le_of_sq_le_sq ?_ (by positivity)
  rw [mul_pow, mul_pow, sq_abs]
  have hpi : (0 : ℝ) < π ^ 2 := by positivity
  have hscaled := mul_le_mul_of_nonneg_right hsquares (le_of_lt (half_pos hpi))
  field_simp at hscaled ⊢
  linarith

end

/-! ## Positions -/

namespace Position

/-- The point of the unit sphere at a position. -/
noncomputable def direction (p : Position ℝ) : EuclideanSpace ℝ (Fin 3) :=
  let lon := Trigonometry.radians p.lon
  let lat := Trigonometry.radians p.lat
  !₂[cos lat * cos lon, cos lat * sin lon, sin lat]

/-- The great-circle angle between two positions, in degrees. -/
noncomputable def greatCircle (p q : Position ℝ) : ℝ :=
  Trigonometry.degrees (InnerProductGeometry.angle p.direction q.direction)

theorem norm_direction (p : Position ℝ) : ‖p.direction‖ = 1 := by
  rw [EuclideanSpace.norm_eq, Real.sqrt_eq_one]
  simp only [direction, Trigonometry.radians_eq, Fin.sum_univ_three, Real.norm_eq_abs, sq_abs,
    Matrix.cons_val]
  linear_combination cos (p.lat * (π / 180)) ^ 2 * sin_sq_add_cos_sq (p.lon * (π / 180)) +
    sin_sq_add_cos_sq (p.lat * (π / 180))

theorem inner_direction (p q : Position ℝ) :
    inner ℝ p.direction q.direction =
      sin (p.lat * (π / 180)) * sin (q.lat * (π / 180)) +
        cos (p.lat * (π / 180)) * cos (q.lat * (π / 180)) *
          cos ((q.lon - p.lon) * (π / 180)) := by
  simp only [direction, Trigonometry.radians_eq, PiLp.inner_apply, Fin.sum_univ_three, sub_mul,
    cos_sub, Matrix.cons_val, RCLike.inner_apply, conj_trivial]
  ring

theorem greatCircle_mul (p q : Position ℝ) :
    greatCircle p q * (π / 180) = InnerProductGeometry.angle p.direction q.direction := by
  rw [greatCircle, Trigonometry.degrees_eq, mul_assoc, div_mul_div_cancel₀' (by norm_num),
    div_self pi_ne_zero, mul_one]

theorem greatCircle_nonneg (p q : Position ℝ) : 0 ≤ greatCircle p q :=
  mul_nonneg (InnerProductGeometry.angle_nonneg _ _) (by positivity)

theorem cos_greatCircle (p q : Position ℝ) :
    cos (greatCircle p q * (π / 180)) =
      sin (p.lat * (π / 180)) * sin (q.lat * (π / 180)) +
        cos (p.lat * (π / 180)) * cos (q.lat * (π / 180)) *
          cos ((q.lon - p.lon) * (π / 180)) := by
  rw [greatCircle_mul, InnerProductGeometry.cos_angle, norm_direction, norm_direction, mul_one,
    div_one, inner_direction]

/-- Whole turns do not count. -/
theorem cos_add_turns (x : ℝ) (k : ℤ) : cos ((x + 360 * k) * (π / 180)) = cos (x * (π / 180)) := by
  rw [← cos_add_int_mul_two_pi (x * (π / 180)) k]
  congr 1
  ring

/-- The angle depends on the latitudes and on the difference of longitudes, up to whole turns. -/
theorem greatCircle_congr {p q p' q' : Position ℝ} (hp : p'.lat = p.lat) (hq : q'.lat = q.lat)
    {k : ℤ} (h : q'.lon - p'.lon = q.lon - p.lon + 360 * k) :
    greatCircle p' q' = greatCircle p q := by
  have hinner : inner ℝ p'.direction q'.direction = inner ℝ p.direction q.direction := by
    rw [inner_direction, inner_direction, hp, hq, h, cos_add_turns]
  rw [greatCircle, greatCircle, InnerProductGeometry.angle, InnerProductGeometry.angle, hinner,
    norm_direction, norm_direction, norm_direction, norm_direction]

theorem chord_eq (p q : Position ℝ) : chord p q = ‖p.direction - q.direction‖ := by
  rw [EuclideanSpace.norm_eq]
  simp only [direction, Fin.sum_univ_three, Real.norm_eq_abs, sq_abs, PiLp.sub_apply,
    Matrix.cons_val]
  simp only [pow_two]
  rfl

theorem half_greatCircle_mem (p q : Position ℝ) :
    greatCircle p q * (π / 180) / 2 ∈ Set.Icc 0 (π / 2) := by
  rw [greatCircle_mul]
  have hnonneg := InnerProductGeometry.angle_nonneg p.direction q.direction
  have hpi := InnerProductGeometry.angle_le_pi p.direction q.direction
  constructor <;> linarith

/-- Half the chord is the sine of half the angle. -/
theorem chord_div_two (p q : Position ℝ) :
    chord p q / 2 = sin (greatCircle p q * (π / 180) / 2) := by
  obtain ⟨hnonneg, hle⟩ := half_greatCircle_mem p q
  have hsin : 0 ≤ sin (greatCircle p q * (π / 180) / 2) :=
    sin_nonneg_of_nonneg_of_le_pi hnonneg (by linarith [pi_pos])
  have hsquare : chord p q ^ 2 = (2 * sin (greatCircle p q * (π / 180) / 2)) ^ 2 := by
    rw [chord_eq, norm_sub_sq_real, norm_direction, norm_direction, mul_pow, sin_sq_eq_half_sub,
      mul_div_cancel₀ _ two_ne_zero, cos_greatCircle, inner_direction]
    ring
  have hchord : chord p q = 2 * sin (greatCircle p q * (π / 180) / 2) :=
    (sq_eq_sq₀ (by rw [chord_eq]; exact norm_nonneg _) (by positivity)).1 hsquare
  rw [hchord]
  ring

/-- The separation is the great-circle angle. -/
theorem separation_eq (p q : Position ℝ) : separation p q = greatCircle p q := by
  obtain ⟨hnonneg, hle⟩ := half_greatCircle_mem p q
  have hunfold : separation p q = 2 * (arcsin (min (chord p q / 2) 1) * (180 / π)) := by
    norm_num [separation, Scalar.smaller, Trigonometry.degrees, Trigonometry.arcsine]
  rw [hunfold, chord_div_two, min_eq_left (sin_le_one _),
    arcsin_sin (by linarith [pi_pos]) hle]
  field_simp

/-! ### Bounds in degrees -/

theorem abs_mul_radian (x : ℝ) : |x * (π / 180)| = |x| * (π / 180) := by
  rw [abs_mul, abs_of_pos (by positivity : (0 : ℝ) < π / 180)]

theorem abs_mul_radian_le {x bound : ℝ} (h : |x| ≤ bound) :
    |x * (π / 180)| ≤ bound * (π / 180) := by
  rw [abs_mul_radian]
  exact mul_le_mul_of_nonneg_right h (by positivity)

theorem abs_mul_radian_le_half_pi {x : ℝ} (h : |x| ≤ 90) : |x * (π / 180)| ≤ π / 2 := by
  linarith [abs_mul_radian_le h]

variable {p q : Position ℝ} {turn : ℝ} {k : ℤ}

theorem abs_lat_sub_le (hp : |p.lat| ≤ 90) (hq : |q.lat| ≤ 90) :
    |q.lat - p.lat| ≤ greatCircle p q := by
  have hle := abs_lat_sub_le_angle (abs_mul_radian_le_half_pi hp) (abs_mul_radian_le_half_pi hq)
    (mul_nonneg (greatCircle_nonneg p q) (by positivity)) (cos_greatCircle p q)
  rw [← sub_mul, abs_mul_radian] at hle
  exact le_of_mul_le_mul_right hle (by positivity)

/-- On one meridian the angle is the difference of the latitudes. -/
theorem greatCircle_of_lon_eq (hlon : p.lon = q.lon) (hp : |p.lat| ≤ 90) (hq : |q.lat| ≤ 90) :
    greatCircle p q = |q.lat - p.lat| := by
  have hunit : (0 : ℝ) < π / 180 := by positivity
  have hcos : cos (greatCircle p q * (π / 180)) = cos (|q.lat - p.lat| * (π / 180)) := by
    rw [cos_greatCircle, hlon, sub_self, zero_mul, cos_zero, ← abs_mul_radian, cos_abs, sub_mul,
      cos_sub]
    ring
  obtain ⟨hnonneg, hle⟩ := half_greatCircle_mem p q
  obtain ⟨hp0, hp⟩ := abs_le.1 hp
  obtain ⟨hq0, hq⟩ := abs_le.1 hq
  have hdiff : |q.lat - p.lat| ≤ 180 := abs_le.2 ⟨by linarith, by linarith⟩
  refine mul_right_cancel₀ hunit.ne' (injOn_cos ⟨by linarith, by linarith⟩ ⟨by positivity, ?_⟩ hcos)
  linarith [mul_le_mul_of_nonneg_right hdiff hunit.le]

theorem cos_greatCircle_of_turn (hturn : turn = q.lon - p.lon + 360 * k) :
    cos (greatCircle p q * (π / 180)) =
      sin (p.lat * (π / 180)) * sin (q.lat * (π / 180)) +
        cos (p.lat * (π / 180)) * cos (q.lat * (π / 180)) * cos (turn * (π / 180)) := by
  rw [cos_greatCircle, hturn, cos_add_turns]

theorem abs_lon_mul_cos_le_sin (hp : |p.lat| ≤ 90) (hq : |q.lat| ≤ 90)
    (hpole : |p.lat| + greatCircle p q < 90) (hturn : turn = q.lon - p.lon + 360 * k)
    (hhalf : |turn| ≤ 180) :
    |turn| * (π / 180) * cos ((|p.lat| + greatCircle p q) * (π / 180)) ≤
      sin (greatCircle p q * (π / 180)) := by
  have hunit : (0 : ℝ) < π / 180 := by positivity
  have hle := abs_turn_mul_cos_le (abs_mul_radian_le_half_pi hp) (abs_mul_radian_le_half_pi hq)
    (by linarith [abs_mul_radian_le hhalf])
    (mul_nonneg (greatCircle_nonneg p q) hunit.le)
    (by rw [abs_mul_radian, ← add_mul]; linarith [mul_lt_mul_of_pos_right hpole hunit])
    (cos_greatCircle_of_turn hturn)
  rwa [abs_mul_radian, abs_mul_radian, ← add_mul] at hle

/-- The longitudes differ by less than the angle, when shrunk by the cosine of the farthest latitude
of the circle, unless they are equal. -/
theorem abs_lon_mul_cos_lt (hp : |p.lat| ≤ 90) (hq : |q.lat| ≤ 90)
    (hpole : |p.lat| + greatCircle p q < 90) (hturn : turn = q.lon - p.lon + 360 * k)
    (hhalf : |turn| ≤ 180) :
    |turn| * cos ((|p.lat| + greatCircle p q) * (π / 180)) < greatCircle p q ∨ turn = 0 := by
  have hunit : (0 : ℝ) < π / 180 := by positivity
  have hle := abs_lon_mul_cos_le_sin hp hq hpole hturn hhalf
  rcases (greatCircle_nonneg p q).eq_or_lt with hzero | hpos
  · right
    have hcos : 0 < cos (|p.lat| * (π / 180)) := by
      apply cos_pos_of_mem_Ioo
      constructor <;> nlinarith [abs_nonneg p.lat, pi_pos]
    rw [← hzero, zero_mul, sin_zero, add_zero] at hle
    have hturn0 := nonpos_of_mul_nonpos_left hle hcos
    exact abs_nonpos_iff.1 (nonpos_of_mul_nonpos_left hturn0 hunit)
  · left
    have hlt := hle.trans_lt (sin_lt (mul_pos hpos hunit))
    rw [mul_right_comm] at hlt
    exact lt_of_mul_lt_mul_right hlt hunit.le

/-- Between two parallels the bound holds up to half of pi, also for a circle that goes over a
pole. -/
theorem abs_lon_mul_cos_le_of_band {edge : ℝ} (hp : |p.lat| ≤ edge) (hq : |q.lat| ≤ edge)
    (hedge : edge ≤ 90) (hturn : turn = q.lon - p.lon + 360 * k) (hhalf : |turn| ≤ 180) :
    |turn| * cos (edge * (π / 180)) ≤ π / 2 * greatCircle p q := by
  have hunit : (0 : ℝ) < π / 180 := by positivity
  have hle := abs_turn_mul_cos_le_of_band (abs_mul_radian_le hp) (abs_mul_radian_le hq)
    (by linarith [mul_le_mul_of_nonneg_right hedge hunit.le])
    (by linarith [abs_mul_radian_le hhalf]) (mul_nonneg (greatCircle_nonneg p q) hunit.le)
    (cos_greatCircle_of_turn hturn)
  rw [abs_mul_radian, mul_right_comm, ← mul_assoc] at hle
  exact le_of_mul_le_mul_right hle hunit

end Position

end SkyDiscovery
