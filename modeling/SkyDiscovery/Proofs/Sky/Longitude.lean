import Mathlib.Algebra.Order.Round
import Mathlib.Tactic.Linarith
import Mathlib.Tactic.NormNum
import SkyDiscovery.Proofs.Number.Exact
import SkyDiscovery.Sky.Longitude

/-!
# Longitudes in exact arithmetic

Wrapping and turning change a longitude by whole turns of the circle and by the turn of the center.
-/

namespace SkyDiscovery.Longitude

variable {K : Type} [Field K] [LinearOrder K] [FloorRing K]

theorem recenter_eq (center lon : K) : recenter center lon = normalize (lon - (center - 180)) := by
  have hhalf : (180.0 : K) = 180 := by norm_num
  rw [recenter, hhalf]

variable [IsStrictOrderedRing K]

/-- The remainder of a division by 360 stays below 360, so it is never replaced. -/
theorem normalize_eq (lon : K) : normalize lon = lon - 360 * ⌊lon / 360⌋ := by
  have hlt : lon - 360 * (⌊lon / 360⌋ : K) < 360 := by
    have h := Int.lt_floor_add_one (lon / 360)
    rw [div_lt_iff₀ (by norm_num)] at h
    linarith
  have hmodulo : Scalar.modulo lon (360.0 : K) = lon - 360 * ⌊lon / 360⌋ := by
    norm_num [Scalar.modulo]
  simp only [normalize, hmodulo]
  exact if_neg (by norm_num [hlt])

theorem normalize_of_mem {lon : K} (h : lon ∈ Set.Ico 0 360) : normalize lon = lon := by
  have hfloor : ⌊lon / 360⌋ = 0 := by
    rw [Int.floor_eq_zero_iff]
    exact ⟨div_nonneg h.1 (by norm_num), (div_lt_one (by norm_num)).2 h.2⟩
  rw [normalize_eq, hfloor, Int.cast_zero, mul_zero, sub_zero]

theorem normalize_mem (lon : K) : normalize lon ∈ Set.Ico 0 360 := by
  have hle := Int.floor_le (lon / 360)
  have hlt := Int.lt_floor_add_one (lon / 360)
  rw [le_div_iff₀ (by norm_num)] at hle
  rw [div_lt_iff₀ (by norm_num)] at hlt
  rw [normalize_eq]
  constructor <;> linarith

theorem exists_normalize (lon : K) : ∃ k : ℤ, normalize lon = lon + 360 * k :=
  ⟨-⌊lon / 360⌋, by rw [normalize_eq, Int.cast_neg]; ring⟩

theorem exists_recenter (center lon : K) :
    ∃ k : ℤ, recenter center lon = lon - center + 180 + 360 * k := by
  obtain ⟨k, hk⟩ := exists_normalize (lon - (center - 180))
  refine ⟨k, ?_⟩
  rw [recenter_eq, hk]
  ring

/-- By whole turns every difference of longitudes comes to half a turn at most. -/
theorem exists_abs_add_turns_le (x : K) : ∃ k : ℤ, |x + 360 * k| ≤ 180 := by
  refine ⟨-round (x / 360), ?_⟩
  have h := abs_sub_round (x / 360)
  rw [abs_le] at h ⊢
  push_cast
  constructor <;> linarith [h.1, h.2, mul_div_cancel₀ x (show (360 : K) ≠ 0 by norm_num)]

end SkyDiscovery.Longitude
