import Mathlib.Order.Bounds.Basic
import Mathlib.Tactic.Ring
import SkyDiscovery.Proofs.Sky.Longitude

/-!
# Distances on the circle

Longitudes that differ by whole turns are those of one meridian, and the distance of two meridians
is the least difference of longitudes on them.  A turn that takes one of them to 180 brings the
other to that distance from 180, on either side, so that no difference is taken across the seam.

* `abs_le_abs_add_turns`: whole turns do not make a difference of half a turn or less smaller.
* `isLeast_abs_recenter`: the distance of a meridian from the center.
* `recenter_measures_distance`: what wrapping and turning do to longitudes.
-/

namespace SkyDiscovery.Longitude

section

variable {K : Type} [Field K] [LinearOrder K] [IsStrictOrderedRing K] [FloorRing K]

theorem normalize_normalize (lon : K) : normalize (normalize lon) = normalize lon :=
  normalize_of_mem (normalize_mem lon)

theorem recenter_self (center : K) : recenter center center = 180 := by
  rw [recenter_eq, sub_sub_cancel, normalize_of_mem (by norm_num)]

/-- Two turned longitudes differ as the longitudes do, modulo whole turns. -/
theorem exists_recenter_sub_recenter (center a b : K) :
    ∃ k : ℤ, recenter center a - recenter center b = a - b + 360 * k := by
  obtain ⟨k, hk⟩ := exists_recenter center a
  obtain ⟨l, hl⟩ := exists_recenter center b
  refine ⟨k - l, ?_⟩
  rw [hk, hl]
  push_cast
  ring

theorem abs_recenter_sub_le (center lon : K) : |recenter center lon - 180| ≤ 180 := by
  obtain ⟨hlow, hhigh⟩ := normalize_mem (lon - (center - 180))
  rw [recenter_eq, abs_le]
  constructor <;> linarith

/-- Whole turns do not make a difference of half a turn or less smaller. -/
theorem abs_le_abs_add_turns {x : K} (h : |x| ≤ 180) (k : ℤ) : |x| ≤ |x + 360 * k| := by
  obtain ⟨hlow, hhigh⟩ := abs_le.1 h
  rcases lt_trichotomy k 0 with hk | rfl | hk
  · have hback : (k : K) ≤ -1 := by exact_mod_cast Int.le_sub_one_of_lt hk
    have hfar : 180 ≤ -(x + 360 * k) := by linarith
    exact h.trans (hfar.trans (neg_le_abs _))
  · rw [Int.cast_zero, mul_zero, add_zero]
  · have hforward : (1 : K) ≤ k := by exact_mod_cast hk
    have hfar : 180 ≤ x + 360 * k := by linarith
    exact h.trans (hfar.trans (le_abs_self _))

/-- Turned longitudes are as far from 180 as the meridians are from each other. -/
theorem isLeast_abs_recenter (center lon : K) :
    IsLeast (Set.range fun k : ℤ => |lon - center + 360 * k|) |recenter center lon - 180| := by
  obtain ⟨turns, hturns⟩ := exists_recenter center lon
  have hoff : recenter center lon - 180 = lon - center + 360 * turns := by
    rw [hturns]
    ring
  constructor
  · exact ⟨turns, by rw [hoff]⟩
  · rintro _ ⟨k, rfl⟩
    dsimp only
    have hsplit : lon - center + 360 * k =
        recenter center lon - 180 + 360 * ((k - turns : ℤ) : K) := by
      rw [hoff]
      push_cast
      ring
    rw [hsplit]
    exact abs_le_abs_add_turns (abs_recenter_sub_le center lon) _

/-- Wrapping gives a longitude of the same meridian in [0, 360).  Turning takes the center to 180,
keeps differences modulo whole turns, and takes every longitude as far from 180 as its meridian is
from that of the center. -/
theorem recenter_measures_distance (center a b : K) :
    normalize a ∈ Set.Ico 0 360 ∧ (∃ k : ℤ, normalize a = a + 360 * k) ∧
      normalize (normalize a) = normalize a ∧
      recenter center center = 180 ∧
      (∃ k : ℤ, recenter center a - recenter center b = a - b + 360 * k) ∧
      IsLeast (Set.range fun k : ℤ => |a - center + 360 * k|) |recenter center a - 180| :=
  ⟨normalize_mem a, exists_normalize a, normalize_normalize a, recenter_self center,
    exists_recenter_sub_recenter center a b, isLeast_abs_recenter center a⟩

end

/-- Three turns below it, the meridian of 1 is still two degrees from that of 359. -/
theorem recenter_measures_distance_far :
    recenter (359 : ℚ) (-1079) = 182 ∧
      IsLeast (Set.range fun k : ℤ => |(-1079 : ℚ) - 359 + 360 * k|) 2 := by
  have hturned : recenter (359 : ℚ) (-1079) = 182 := by
    have hfloor : ⌊(-1258 : ℚ) / 360⌋ = -4 := by
      rw [Int.floor_eq_iff]
      norm_num
    rw [recenter_eq, normalize_eq]
    norm_num [hfloor]
  refine ⟨hturned, ?_⟩
  obtain ⟨-, -, -, -, -, hleast⟩ := recenter_measures_distance (359 : ℚ) (-1079) 0
  rw [hturned] at hleast
  norm_num at hleast ⊢
  exact hleast

end SkyDiscovery.Longitude
