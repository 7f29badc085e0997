import Mathlib.Analysis.Real.Pi.Bounds
import SkyDiscovery.Proofs.Sky.Separation
import SkyDiscovery.Sky.Box

/-!
# Boxes in exact arithmetic

A box holds its longitudes modulo whole turns, wherever the seam cuts it, and the box around a
position holds the circle around it.

* `exists_lonRange_iff`: the intervals of a box hold what lies between its bounds, modulo 360, but
  for the end of a box that ends at 360.
* `contains_around`: a position within both half-widths lies in the box.
* `contains_around_iff`: within half of the half-width in longitude, the latitudes alone decide.
-/

namespace SkyDiscovery.SkyBox

section

variable {K : Type} [Field K] [LinearOrder K] [FloorRing K]

theorem contains_iff (b : SkyBox K) (p : Position K) :
    b.contains p = true ↔ b.latMin ≤ p.lat ∧ p.lat ≤ b.latMax ∧
      ∃ i ∈ b.lonRanges, i.1 ≤ Longitude.normalize p.lon ∧ Longitude.normalize p.lon ≤ i.2 := by
  unfold contains
  split_ifs with h
  · simp only [false_iff]
    rintro ⟨hmin, hmax, -⟩
    exact h.elim hmin.not_gt hmax.not_gt
  · simp only [not_or, not_lt] at h
    simp [h.1, h.2]

theorem lonRanges_eq {b : SkyBox K} {low high : K} (hb : b.lon = some (low, high)) :
    b.lonRanges =
      if low < 0 then [(360 + low, 360), (0, high)]
      else if 360 < high then [(low, 360), (0, high - 360)]
      else [(low, high)] := by
  simp only [lonRanges, hb]
  norm_num

theorem lonRanges_of_none {b : SkyBox K} (hb : b.lon = none) : b.lonRanges = [(0, 360)] := by
  simp only [lonRanges, hb]
  norm_num

variable [IsStrictOrderedRing K]

/-- One turn at most parts a longitude from the bounds of a box. -/
theorem turns_cases {c s lon : K} (hc : c ∈ Set.Ico 0 360) (hs : s < 180)
    (hlon : lon ∈ Set.Ico 0 360) {k : ℤ} (hlow : c - s ≤ lon + 360 * k)
    (hhigh : lon + 360 * k ≤ c + s) : k = -1 ∨ k = 0 ∨ k = 1 := by
  have hleast : (-2 : K) < k := by linarith [hc.1, hlon.2]
  have hmost : (k : K) < 2 := by linarith [hc.2, hlon.1]
  have hleast : -2 < k := by exact_mod_cast hleast
  have hmost : k < 2 := by exact_mod_cast hmost
  omega

/-- The intervals of a box hold what lies between its bounds, modulo whole turns.  Only a box that
ends at 360 is not split there, so that its last longitude, which wraps to 0, is missing. -/
theorem exists_lonRange_iff {b : SkyBox K} {c s lon : K} (hb : b.lon = some (c - s, c + s))
    (hc : c ∈ Set.Ico 0 360) (hs : s ∈ Set.Ico 0 180) (hlon : lon ∈ Set.Ico 0 360) :
    (∃ i ∈ b.lonRanges, i.1 ≤ lon ∧ lon ≤ i.2) ↔
      (∃ k : ℤ, c - s ≤ lon + 360 * k ∧ lon + 360 * k ≤ c + s) ∧ ¬ (c + s = 360 ∧ lon = 0) := by
  have hcases {k : ℤ} := turns_cases hc hs.2 hlon (k := k)
  obtain ⟨hc0, hc⟩ := hc
  obtain ⟨hs0, hs⟩ := hs
  obtain ⟨hlon0, hlon⟩ := hlon
  rw [lonRanges_eq hb]
  split_ifs with hbelow habove
  · rw [List.exists_mem_cons_iff, List.exists_mem_cons_iff]
    constructor
    · rintro (⟨hlow, -⟩ | ⟨-, hhigh⟩ | ⟨i, hi, -⟩)
      · exact ⟨⟨-1, by push_cast; linarith, by push_cast; linarith⟩, fun h => by linarith [h.1]⟩
      · exact ⟨⟨0, by push_cast; linarith, by push_cast; linarith⟩, fun h => by linarith [h.1]⟩
      · cases hi
    · rintro ⟨⟨k, hlow, hhigh⟩, -⟩
      rcases hcases hlow hhigh with rfl | rfl | rfl <;> push_cast at hlow hhigh
      · exact .inl ⟨by linarith, by linarith⟩
      · exact .inr (.inl ⟨by linarith, by linarith⟩)
      · linarith
  · rw [List.exists_mem_cons_iff, List.exists_mem_cons_iff]
    constructor
    · rintro (⟨hlow, -⟩ | ⟨-, hhigh⟩ | ⟨i, hi, -⟩)
      · exact ⟨⟨0, by push_cast; linarith, by push_cast; linarith⟩, fun h => habove.ne' h.1⟩
      · exact ⟨⟨1, by push_cast; linarith, by push_cast; linarith⟩, fun h => habove.ne' h.1⟩
      · cases hi
    · rintro ⟨⟨k, hlow, hhigh⟩, -⟩
      rcases hcases hlow hhigh with rfl | rfl | rfl <;> push_cast at hlow hhigh
      · linarith
      · exact .inl ⟨by linarith, by linarith⟩
      · exact .inr (.inl ⟨by linarith, by linarith⟩)
  · rw [List.exists_mem_cons_iff]
    constructor
    · rintro (⟨hlow, hhigh⟩ | ⟨i, hi, -⟩)
      · refine ⟨⟨0, by push_cast; linarith, by push_cast; linarith⟩, ?_⟩
        rintro ⟨hend, rfl⟩
        linarith
      · cases hi
    · rintro ⟨⟨k, hlow, hhigh⟩, hseam⟩
      rcases hcases hlow hhigh with rfl | rfl | rfl <;> push_cast at hlow hhigh
      · linarith
      · exact .inl ⟨by linarith, by linarith⟩
      -- a turn forward the longitude would be 360 at least, so it is the end of the box
      · exact absurd ⟨by linarith, by linarith⟩ hseam

/-- An interval of a box holds a longitude inside its bounds, modulo 360, and that of the center. -/
theorem exists_lonRange {b : SkyBox K} {c s lon : K} (hb : b.lon = some (c - s, c + s))
    (hc : c ∈ Set.Ico 0 360) (hs : s ∈ Set.Ico 0 180) (hlon : lon ∈ Set.Ico 0 360) {k : ℤ}
    (hk : |lon - c + 360 * k| < s ∨ lon - c + 360 * k = 0) :
    ∃ i ∈ b.lonRanges, i.1 ≤ lon ∧ lon ≤ i.2 := by
  rw [exists_lonRange_iff hb hc hs hlon]
  obtain ⟨hc0, hc⟩ := hc
  obtain ⟨hs0, hs⟩ := hs
  have hlow : c - s ≤ lon + 360 * k := by
    rcases hk with hk | hk
    · linarith [(abs_lt.1 hk).1]
    · linarith
  have hhigh : lon + 360 * k ≤ c + s := by
    rcases hk with hk | hk
    · linarith [(abs_lt.1 hk).2]
    · linarith
  refine ⟨⟨k, hlow, hhigh⟩, ?_⟩
  rintro ⟨hend, rfl⟩
  have hpos : (0 : K) < k := by linarith
  have hone : (k : K) < 1 := by
    rcases hk with hk | hk
    · linarith [(abs_lt.1 hk).2]
    · linarith
  have hpos : 0 < k := by exact_mod_cast hpos
  have hone : k < 1 := by exact_mod_cast hone
  omega

end

/-! ## The box around a position -/

open Position Real

variable {c p : Position ℝ} {a b : ℝ}

theorem max_abs_sub_abs_add (lat : ℝ) (hb : 0 ≤ b) : max |lat - b| |lat + b| = |lat| + b := by
  rcases le_total 0 lat with h | h
  · have hle : |lat - b| ≤ lat + b := abs_le.2 ⟨by linarith, by linarith⟩
    rw [abs_of_nonneg h, abs_of_nonneg (by linarith : 0 ≤ lat + b), max_eq_right hle]
  · have hle : |lat + b| ≤ -lat + b := abs_le.2 ⟨by linarith, by linarith⟩
    rw [abs_of_nonpos h, abs_of_nonpos (by linarith : lat - b ≤ 0), neg_sub', sub_neg_eq_add,
      max_eq_left hle]

theorem cos_radian_pos {lat : ℝ} (hb : 0 ≤ b) (h : |lat| + b < 90) :
    0 < cos ((|lat| + b) * (π / 180)) := by
  apply cos_pos_of_mem_Ioo
  constructor <;> nlinarith [abs_nonneg lat, pi_pos]

/-- A box that does not reach a pole has bounds in longitude, unless it goes all the way round. -/
theorem around_cases (c : Position ℝ) (a : ℝ) (hb : 0 ≤ b) :
    (around c a b).latMin = max (c.lat - b) (-90) ∧ (around c a b).latMax = min (c.lat + b) 90 ∧
      ((around c a b).lon = none ∨
        |c.lat| + b < 90 ∧ a / cos ((|c.lat| + b) * (π / 180)) < 180 ∧
          (around c a b).lon = some (c.lon - a / cos ((|c.lat| + b) * (π / 180)),
            c.lon + a / cos ((|c.lat| + b) * (π / 180)))) := by
  have hunfold : around c a b =
      let latMin := max (c.lat - b) (-90)
      let latMax := min (c.lat + b) 90
      let edge := max |latMin| |latMax|
      if 90 ≤ edge then band latMin latMax
      else
        let stretched := a / cos (edge * (π / 180))
        if 180 ≤ stretched then band latMin latMax
        else ⟨some (c.lon - stretched, c.lon + stretched), latMin, latMax⟩ := by
    norm_num [around, Scalar.larger, Scalar.smaller, Scalar.abs, Scalar.isFinite,
      Trigonometry.cosine, Trigonometry.radians]
  rw [hunfold]
  dsimp only
  split_ifs with hedge hstretched
  · exact ⟨rfl, rfl, .inl rfl⟩
  · exact ⟨rfl, rfl, .inl rfl⟩
  · obtain ⟨hmin, hmax⟩ := max_lt_iff.1 (not_le.1 hedge)
    have hlow : -90 < c.lat - b := by
      by_contra h
      rw [max_eq_right (not_lt.1 h)] at hmin
      norm_num at hmin
    have hhigh : c.lat + b < 90 := by
      by_contra h
      rw [min_eq_right (not_lt.1 h)] at hmax
      norm_num at hmax
    rw [max_eq_left hlow.le, min_eq_left hhigh.le, max_abs_sub_abs_add c.lat hb] at hstretched ⊢
    have hpole : |c.lat| + b < 90 := by
      linarith [abs_lt.2 (⟨by linarith, by linarith⟩ : -(90 - b) < c.lat ∧ c.lat < 90 - b)]
    exact ⟨rfl, rfl, .inr ⟨hpole, not_le.1 hstretched, rfl⟩⟩

/-- A position between the latitudes of the box lies in it if its longitude is less off than the
half-width, shrunk by the cosine of the latitude nearest a pole. -/
theorem contains_of_lon (hc : c.lon ∈ Set.Ico 0 360) (hp : p.lon ∈ Set.Ico 0 360) (ha : 0 ≤ a)
    (hb : 0 ≤ b) (hmin : (around c a b).latMin ≤ p.lat) (hmax : p.lat ≤ (around c a b).latMax)
    (hlon : |c.lat| + b < 90 → ∀ (turn : ℝ) (k : ℤ), turn = p.lon - c.lon + 360 * k →
      |turn| ≤ 180 → |turn| * cos ((|c.lat| + b) * (π / 180)) < a ∨ turn = 0) :
    (around c a b).contains p = true := by
  rw [contains_iff, Longitude.normalize_of_mem hp]
  refine ⟨hmin, hmax, ?_⟩
  obtain ⟨-, -, hnone | ⟨hpole, hstretched, hsome⟩⟩ := around_cases c a hb
  · rw [lonRanges_of_none hnone]
    exact ⟨_, List.mem_singleton_self _, hp.1, hp.2.le⟩
  · have hcos := cos_radian_pos hb hpole
    obtain ⟨k, hk⟩ := Longitude.exists_abs_add_turns_le (p.lon - c.lon)
    refine exists_lonRange hsome hc ⟨div_nonneg ha hcos.le, hstretched⟩ hp (k := k) ?_
    rw [lt_div_iff₀ hcos]
    exact hlon hpole _ k rfl hk

/-- The box around a position holds every position within both half-widths of it. -/
theorem contains_around (hc : c.lon ∈ Set.Ico 0 360) (hclat : |c.lat| ≤ 90)
    (hp : p.lon ∈ Set.Ico 0 360) (hplat : |p.lat| ≤ 90) (ha : greatCircle c p ≤ a)
    (hb : greatCircle c p ≤ b) : (around c a b).contains p = true := by
  have hnonneg := greatCircle_nonneg c p
  obtain ⟨hmin, hmax, -⟩ := around_cases c a (hnonneg.trans hb)
  obtain ⟨hlow, hhigh⟩ := abs_le.1 ((abs_lat_sub_le hclat hplat).trans hb)
  obtain ⟨hsouth, hnorth⟩ := abs_le.1 hplat
  refine contains_of_lon hc hp (hnonneg.trans ha) (hnonneg.trans hb) ?_ ?_ ?_
  · rw [hmin]
    exact max_le (by linarith) hsouth
  · rw [hmax]
    exact le_min (by linarith) hnorth
  · intro hpole turn k hturn hhalf
    have hcos : cos ((|c.lat| + b) * (π / 180)) ≤
        cos ((|c.lat| + greatCircle c p) * (π / 180)) := by
      apply cos_le_cos_of_nonneg_of_le_pi
      · have := abs_nonneg c.lat
        positivity
      · nlinarith [pi_pos]
      · gcongr
    rcases abs_lon_mul_cos_lt hclat hplat (by linarith) hturn hhalf with hlt | hzero
    · left
      calc |turn| * cos ((|c.lat| + b) * (π / 180))
          ≤ |turn| * cos ((|c.lat| + greatCircle c p) * (π / 180)) :=
            mul_le_mul_of_nonneg_left hcos (abs_nonneg _)
        _ < greatCircle c p := hlt
        _ ≤ a := ha
    · exact .inr hzero

/-- Of the positions within half the half-width in longitude the box holds all those between its
latitudes. -/
theorem contains_around_iff (hc : c.lon ∈ Set.Ico 0 360) (hp : p.lon ∈ Set.Ico 0 360) (hb : 0 ≤ b)
    (ha : 2 * greatCircle c p ≤ a) :
    (around c a b).contains p = true ↔
      (around c a b).latMin ≤ p.lat ∧ p.lat ≤ (around c a b).latMax := by
  have hnonneg := greatCircle_nonneg c p
  constructor
  · intro h
    obtain ⟨hmin, hmax, -⟩ := (contains_iff _ _).1 h
    exact ⟨hmin, hmax⟩
  · rintro ⟨hmin, hmax⟩
    refine contains_of_lon hc hp (by linarith) hb hmin hmax ?_
    intro hpole turn k hturn hhalf
    obtain ⟨hlatMin, hlatMax, -⟩ := around_cases c a hb
    rw [hlatMin, max_le_iff] at hmin
    rw [hlatMax, le_min_iff] at hmax
    have hplat : |p.lat| ≤ |c.lat| + b := by
      obtain ⟨hlow, hhigh⟩ := abs_le.1 (le_refl |c.lat|)
      exact abs_le.2 ⟨by linarith, by linarith⟩
    have hle := abs_lon_mul_cos_le_of_band (by linarith : |c.lat| ≤ |c.lat| + b) hplat hpole.le
      hturn hhalf
    rcases hnonneg.eq_or_lt with hzero | hpos
    · right
      have hcos : 0 < cos ((|c.lat| + b) * (π / 180)) := cos_radian_pos hb hpole
      rw [← hzero, mul_zero] at hle
      exact abs_nonpos_iff.1 (nonpos_of_mul_nonpos_left hle hcos)
    · left
      calc |turn| * cos ((|c.lat| + b) * (π / 180)) ≤ π / 2 * greatCircle c p := hle
        _ < 2 * greatCircle c p := by
          gcongr
          linarith [pi_lt_d2]
        _ ≤ a := ha

end SkyDiscovery.SkyBox
