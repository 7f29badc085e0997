import Mathlib.Tactic.Ring
import SkyDiscovery.Proofs.Sky.Box

/-!
# Boxes modulo whole turns

Positions are wrapped before they are looked for in a box, and a box that crosses the seam is split
there.  In exact arithmetic the two undo each other: a box holds a position if some number of turns
takes its longitude between the bounds.  The one exception is a box that ends at 360, which is not
split, so that the meridian at which it ends is wrapped out of it.

* `contains_iff_exists_turns`: what a box with bounds in longitude holds.
-/

namespace SkyDiscovery

section

variable {K : Type} [Field K] [LinearOrder K] [IsStrictOrderedRing K] [FloorRing K]

namespace Longitude

/-- Wrapping changes nothing about which turns take a longitude between two bounds. -/
theorem exists_turns_normalize_iff (low high lon : K) :
    (∃ k : ℤ, low ≤ normalize lon + 360 * k ∧ normalize lon + 360 * k ≤ high) ↔
      ∃ k : ℤ, low ≤ lon + 360 * k ∧ lon + 360 * k ≤ high := by
  obtain ⟨turns, hturns⟩ := exists_normalize lon
  have hadd (k : ℤ) : lon + 360 * ((turns + k : ℤ) : K) = normalize lon + 360 * k := by
    rw [hturns]
    push_cast
    ring
  constructor
  · rintro ⟨k, hk⟩
    exact ⟨turns + k, by rwa [hadd]⟩
  · rintro ⟨k, hk⟩
    refine ⟨k - turns, ?_⟩
    rwa [← hadd, add_sub_cancel]

theorem normalize_eq_zero_iff (lon : K) : normalize lon = 0 ↔ ∃ k : ℤ, lon = 360 * k := by
  rw [normalize_eq, sub_eq_zero]
  constructor
  · exact fun h => ⟨_, h⟩
  · rintro ⟨k, rfl⟩
    rw [mul_div_cancel_left₀ _ (by norm_num), Int.floor_intCast]

end Longitude

namespace SkyBox

variable {c s latMin latMax : K}

/-- A box holds the positions between its latitudes whose longitude lies between its bounds, modulo
whole turns, except the meridian of 0 when it ends at 360. -/
theorem contains_iff_exists_turns (hc : c ∈ Set.Ico 0 360) (hs : s ∈ Set.Ico 0 180)
    (p : Position K) :
    contains ⟨some (c - s, c + s), latMin, latMax⟩ p = true ↔
      latMin ≤ p.lat ∧ p.lat ≤ latMax ∧
        (∃ k : ℤ, c - s ≤ p.lon + 360 * k ∧ p.lon + 360 * k ≤ c + s) ∧
        ¬ (c + s = 360 ∧ ∃ k : ℤ, p.lon = 360 * k) := by
  rw [contains_iff, exists_lonRange_iff rfl hc hs (Longitude.normalize_mem p.lon),
    Longitude.exists_turns_normalize_iff, Longitude.normalize_eq_zero_iff]

end SkyBox

end

namespace SkyBox

/-- A box around the seam holds a position that is two turns and half a degree away from its
center. -/
theorem contains_iff_exists_turns_across_seam :
    ((355 : ℚ) ∈ Set.Ico 0 360 ∧ (10 : ℚ) ∈ Set.Ico 0 180) ∧
      contains ⟨some (355 - 10, 355 + 10), -5, 5⟩ (⟨-725, 5⟩ : Position ℚ) = true := by
  refine ⟨by norm_num, ?_⟩
  rw [contains_iff_exists_turns (by norm_num) (by norm_num)]
  refine ⟨by norm_num, by norm_num, ⟨3, by norm_num, by norm_num⟩, ?_⟩
  norm_num

/-- A box from 340 to 360 does not hold longitude 0, at which it ends. -/
theorem box_misses_its_end :
    contains ⟨some (350 - 10, 350 + 10), -5, 5⟩ (⟨0, 0⟩ : Position ℚ) = false ∧
      ∃ k : ℤ, (350 - 10 : ℚ) ≤ 0 + 360 * k ∧ (0 + 360 * k : ℚ) ≤ 350 + 10 := by
  refine ⟨?_, 1, by norm_num, by norm_num⟩
  rw [Bool.eq_false_iff, ne_eq, contains_iff, lonRanges_eq rfl,
    Longitude.normalize_of_mem (by norm_num)]
  norm_num

end SkyBox

end SkyDiscovery
