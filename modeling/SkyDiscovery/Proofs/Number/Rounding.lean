import Mathlib.Algebra.Order.Field.Power
import Mathlib.Data.Int.Log
import Mathlib.Data.Rat.Floor
import Mathlib.Tactic.FieldSimp
import Mathlib.Tactic.Positivity
import SkyDiscovery.Number.Binary64

/-!
# Rounding to double precision

`Binary64.nearest` looks for the power of two of a quotient by the lengths of its two numbers.  Here
that power is found to be the binary logarithm of the quotient, so that the magnitude nearest to a
quotient depends on its value only, and a quotient that is the value of a magnitude rounds to it.

* `powerOf_eq`: the power that the search comes to.
* `nearest_congr`: equal quotients round to the same magnitude.
* `nearest_quotient`: the value of a finite magnitude rounds to that magnitude.
-/

namespace SkyDiscovery.Binary64

/-- The two whole numbers whose quotient is `num / den` divided by `2 ^ p`. -/
def scaled (num den : ℕ) (p : ℤ) : ℕ × ℕ :=
  (num <<< (-p).toNat, den <<< p.toNat)

/-- The first guess at the power of two, corrected by one where it is too low. -/
def powerOf (num den : ℕ) : ℤ :=
  let k : ℤ := (num.log2 : ℤ) - den.log2 - 53
  if (scaled num den k).2 <<< 53 ≤ (scaled num den k).1 then k + 1 else k

theorem nearest_eq {num : ℕ} (den : ℕ) (h : num ≠ 0) :
    nearest num den =
      min infinite ((max (powerOf num den) (-1074) + 1074).toNat <<< 52 +
        roundHalfEven (scaled num den (max (powerOf num den) (-1074))).1
          (scaled num den (max (powerOf num den) (-1074))).2) := by
  have hmax : (if powerOf num den < -1074 then -1074 else powerOf num den) =
      max (powerOf num den) (-1074) := by
    split <;> omega
  rw [← hmax, nearest, if_neg h]
  rfl

/-! ## The power of two -/

theorem scaled_eq (num den : ℕ) (p : ℤ) :
    scaled num den p = (num * 2 ^ (-p).toNat, den * 2 ^ p.toNat) := by
  rw [scaled, Nat.shiftLeft_eq, Nat.shiftLeft_eq]

theorem div_scaled (num : ℕ) {den : ℕ} (hden : den ≠ 0) (p : ℤ) :
    ((scaled num den p).1 : ℚ) / ((scaled num den p).2 : ℚ) = (num : ℚ) / den / 2 ^ p := by
  have hden' : (den : ℚ) ≠ 0 := Nat.cast_ne_zero.2 hden
  rcases Int.le_total 0 p with hp | hp
  · obtain ⟨k, rfl⟩ := Int.eq_ofNat_of_zero_le hp
    simp only [scaled_eq, Nat.cast_mul, Nat.cast_pow, Nat.cast_ofNat]
    rw [show (-(k : ℤ)).toNat = 0 by omega, show ((k : ℤ)).toNat = k by omega, zpow_natCast]
    field_simp
  · obtain ⟨k, hk⟩ := Int.eq_ofNat_of_zero_le (Int.neg_nonneg.2 hp)
    obtain rfl : p = -(k : ℤ) := by omega
    simp only [scaled_eq, Nat.cast_mul, Nat.cast_pow, Nat.cast_ofNat]
    rw [show (-(-(k : ℤ))).toNat = k by omega, show (-(k : ℤ)).toNat = 0 by omega, zpow_neg,
      zpow_natCast]
    field_simp

theorem scaled_snd_pos {den : ℕ} (hden : den ≠ 0) (num : ℕ) (p : ℤ) :
    0 < (scaled num den p).2 := by
  have hpos : 0 < den := Nat.pos_of_ne_zero hden
  rw [scaled_eq]
  exact Nat.mul_pos hpos (by positivity)

theorem le_scaled_iff (num : ℕ) {den : ℕ} (hden : den ≠ 0) (p : ℤ) (n : ℕ) :
    n * (scaled num den p).2 ≤ (scaled num den p).1 ↔ (n : ℚ) * 2 ^ p ≤ (num : ℚ) / den := by
  have hpos : (0 : ℚ) < (scaled num den p).2 := by exact_mod_cast scaled_snd_pos hden num p
  have htwo : (0 : ℚ) < 2 ^ p := by positivity
  rw [← le_div_iff₀ htwo, ← div_scaled num hden p, le_div_iff₀ hpos]
  exact_mod_cast Iff.rfl

theorem cast_div_pos {num den : ℕ} (h : num ≠ 0) (hden : den ≠ 0) :
    (0 : ℚ) < (num : ℚ) / den := by
  have hnum := Nat.pos_of_ne_zero h
  have hden := Nat.pos_of_ne_zero hden
  positivity

/-- The lengths of two numbers bound the logarithm of their quotient from below. -/
theorem log2_sub_le_log {num den : ℕ} (h : num ≠ 0) (hden : den ≠ 0) :
    (num.log2 : ℤ) - den.log2 - 1 ≤ Int.log 2 ((num : ℚ) / den) := by
  have hdenpos : (0 : ℚ) < den := by exact_mod_cast Nat.pos_of_ne_zero hden
  rw [← Int.zpow_le_iff_le_log (by decide) (cast_div_pos h hden), le_div_iff₀ hdenpos]
  have hnum : (2 : ℚ) ^ (num.log2 : ℤ) ≤ num := by
    rw [zpow_natCast]
    exact_mod_cast Nat.log2_self_le h
  have hden₂ : (den : ℚ) ≤ 2 ^ ((den.log2 : ℤ) + 1) := by
    rw [← Int.natCast_succ, zpow_natCast]
    exact_mod_cast Nat.lt_log2_self.le
  calc (2 : ℚ) ^ ((num.log2 : ℤ) - den.log2 - 1) * den
      ≤ 2 ^ ((num.log2 : ℤ) - den.log2 - 1) * 2 ^ ((den.log2 : ℤ) + 1) := by gcongr
    _ = 2 ^ (num.log2 : ℤ) := by rw [← zpow_add₀ (by norm_num)]; congr 1; ring
    _ ≤ num := hnum

/-- And from above. -/
theorem log_lt_log2_sub {num den : ℕ} (h : num ≠ 0) (hden : den ≠ 0) :
    Int.log 2 ((num : ℚ) / den) < (num.log2 : ℤ) - den.log2 + 1 := by
  have hdenpos : (0 : ℚ) < den := by exact_mod_cast Nat.pos_of_ne_zero hden
  rw [← Int.lt_zpow_iff_log_lt (by decide) (cast_div_pos h hden), div_lt_iff₀ hdenpos]
  have hnum : (num : ℚ) < 2 ^ ((num.log2 : ℤ) + 1) := by
    rw [← Int.natCast_succ, zpow_natCast]
    exact_mod_cast Nat.lt_log2_self
  have hden₂ : (2 : ℚ) ^ (den.log2 : ℤ) ≤ den := by
    rw [zpow_natCast]
    exact_mod_cast Nat.log2_self_le hden
  calc (num : ℚ) < 2 ^ ((num.log2 : ℤ) + 1) := hnum
    _ = 2 ^ ((num.log2 : ℤ) - den.log2 + 1) * 2 ^ (den.log2 : ℤ) := by
      rw [← zpow_add₀ (by norm_num)]; congr 1; ring
    _ ≤ 2 ^ ((num.log2 : ℤ) - den.log2 + 1) * den := by gcongr

/-- The search comes to the power for which the significand has 53 bits. -/
theorem powerOf_eq {num den : ℕ} (h : num ≠ 0) (hden : den ≠ 0) :
    powerOf num den = Int.log 2 ((num : ℚ) / den) - 52 := by
  have hlow := log2_sub_le_log h hden
  have hhigh := log_lt_log2_sub h hden
  have htest : (scaled num den ((num.log2 : ℤ) - den.log2 - 53)).2 <<< 53 ≤
      (scaled num den ((num.log2 : ℤ) - den.log2 - 53)).1 ↔
        (num.log2 : ℤ) - den.log2 ≤ Int.log 2 ((num : ℚ) / den) := by
    have hpower : ((2 ^ 53 : ℕ) : ℚ) * 2 ^ ((num.log2 : ℤ) - den.log2 - 53) =
        ((2 : ℕ) : ℚ) ^ ((num.log2 : ℤ) - den.log2) := by
      rw [Nat.cast_pow, ← zpow_natCast, Nat.cast_ofNat, ← zpow_add₀ (by norm_num)]
      congr 1
      push_cast
      ring
    rw [Nat.shiftLeft_eq, Nat.mul_comm, le_scaled_iff num hden,
      ← Int.zpow_le_iff_le_log (by decide) (cast_div_pos h hden), hpower]
  unfold powerOf
  simp only [htest]
  split <;> omega

/-! ## Quotients of equal value -/

theorem roundHalfEven_mul {k : ℕ} (hk : 0 < k) (num den : ℕ) :
    roundHalfEven (k * num) (k * den) = roundHalfEven num den := by
  have hlt : ∀ a b : ℕ, k * a < k * b ↔ a < b := fun a b => Nat.mul_lt_mul_left hk
  simp only [roundHalfEven, Nat.mul_div_mul_left num den hk, Nat.mul_mod_mul_left]
  simp only [Nat.mul_left_comm 2 k, hlt]

theorem roundHalfEven_congr {num den num' den' : ℕ} (hden : 0 < den) (hden' : 0 < den')
    (h : (num : ℚ) / den = (num' : ℚ) / den') :
    roundHalfEven num den = roundHalfEven num' den' := by
  have hcross : num * den' = num' * den := by
    rw [div_eq_div_iff (by exact_mod_cast hden.ne') (by exact_mod_cast hden'.ne')] at h
    exact_mod_cast h
  calc roundHalfEven num den = roundHalfEven (den' * num) (den' * den) :=
        (roundHalfEven_mul hden' num den).symm
    _ = roundHalfEven (den * num') (den * den') := by
        rw [Nat.mul_comm den' num, hcross, Nat.mul_comm num' den, Nat.mul_comm den' den]
    _ = roundHalfEven num' den' := roundHalfEven_mul hden num' den'

theorem nearest_congr {num den num' den' : ℕ} (hden : den ≠ 0) (hden' : den' ≠ 0)
    (h : (num : ℚ) / den = (num' : ℚ) / den') : nearest num den = nearest num' den' := by
  have hzero : num = 0 ↔ num' = 0 := by
    have hden₀ : (den : ℚ) ≠ 0 := Nat.cast_ne_zero.2 hden
    have hden₀' : (den' : ℚ) ≠ 0 := Nat.cast_ne_zero.2 hden'
    rw [div_eq_div_iff hden₀ hden₀'] at h
    have hcross : num * den' = num' * den := by exact_mod_cast h
    constructor
    · rintro rfl
      simpa [hden] using hcross
    · rintro rfl
      simpa [hden'] using hcross
  by_cases hnum : num = 0
  · rw [nearest, nearest, if_pos hnum, if_pos (hzero.1 hnum)]
  have hnum' : num' ≠ 0 := fun h₀ => hnum (hzero.2 h₀)
  have hpower : powerOf num den = powerOf num' den' := by
    rw [powerOf_eq hnum hden, powerOf_eq hnum' hden', h]
  have hround (p : ℤ) : roundHalfEven (scaled num den p).1 (scaled num den p).2 =
      roundHalfEven (scaled num' den' p).1 (scaled num' den' p).2 := by
    refine roundHalfEven_congr (scaled_snd_pos hden _ _) (scaled_snd_pos hden' _ _) ?_
    rw [div_scaled num hden, div_scaled num' hden', h]
  rw [nearest_eq den hnum, nearest_eq den' hnum', hpower, hround]

/-! ## The values of magnitudes -/

/-- The value of a finite magnitude. -/
def valueOf (m : ℕ) : ℚ :=
  (significand m : ℚ) * 2 ^ power m

theorem quotient_eq (m : ℕ) : quotient m = scaled (significand m) 1 (-power m) := by
  rw [quotient, scaled, Int.neg_neg]

theorem quotient_snd_ne_zero (m : ℕ) : (quotient m).2 ≠ 0 := by
  rw [quotient_eq]
  exact (scaled_snd_pos one_ne_zero _ _).ne'

theorem div_quotient (m : ℕ) : ((quotient m).1 : ℚ) / ((quotient m).2 : ℚ) = valueOf m := by
  rw [quotient_eq, div_scaled _ one_ne_zero, Nat.cast_one, div_one, zpow_neg, div_inv_eq_mul,
    valueOf]

theorem significand_eq (m : ℕ) :
    significand m = if m < 2 ^ 52 then m else 2 ^ 52 + m % 2 ^ 52 :=
  rfl

theorem power_eq (m : ℕ) :
    power m = if m < 2 ^ 52 then -1074 else ((m / 2 ^ 52 : ℕ) : ℤ) - 1075 :=
  rfl

theorem significand_pos {m : ℕ} (h : m ≠ 0) : 0 < significand m := by
  unfold significand
  split <;> omega

theorem significand_lt (m : ℕ) : significand m < 2 ^ 53 := by
  unfold significand
  split <;> omega

theorem power_bounds {m : ℕ} (h : m < infinite) : -1074 ≤ power m ∧ power m ≤ 971 := by
  unfold power
  unfold infinite at h
  split <;> omega

theorem valueOf_pos {m : ℕ} (h : m ≠ 0) : 0 < valueOf m := by
  have := significand_pos h
  unfold valueOf
  positivity

/-- The power of a magnitude is that of its value, as far as the format goes down. -/
theorem max_log_valueOf {m : ℕ} (h : m ≠ 0) :
    max (Int.log 2 (valueOf m) - 52) (-1074) = power m := by
  have hvalue := valueOf_pos h
  by_cases hm : m < 2 ^ 52
  · -- below the normal numbers the power stays at the least one
    have hpower : power m = -1074 := (power_eq m).trans (if_pos hm)
    have hlog : Int.log 2 (valueOf m) < -1022 := by
      rw [← Int.lt_zpow_iff_log_lt (by decide) hvalue, valueOf, hpower, significand_eq, if_pos hm]
      calc (m : ℚ) * 2 ^ (-1074 : ℤ) < (2 ^ 52 : ℕ) * 2 ^ (-1074 : ℤ) := by
            gcongr
        _ = ((2 : ℕ) : ℚ) ^ (-1022 : ℤ) := by
            rw [Nat.cast_pow, ← zpow_natCast, Nat.cast_ofNat, ← zpow_add₀ (by norm_num)]
            rfl
    omega
  · have hpower : power m = (m / 2 ^ 52 : ℕ) - 1075 := (power_eq m).trans (if_neg hm)
    have hsignificand : significand m = 2 ^ 52 + m % 2 ^ 52 :=
      (significand_eq m).trans (if_neg hm)
    have hlow : 52 + power m ≤ Int.log 2 (valueOf m) := by
      have hbound : (2 : ℚ) ^ (52 : ℤ) ≤ significand m := by
        rw [hsignificand]
        exact_mod_cast Nat.le_add_right _ _
      rw [← Int.zpow_le_iff_le_log (by decide) hvalue, valueOf, Nat.cast_ofNat,
        zpow_add₀ (by norm_num)]
      gcongr
    have hhigh : Int.log 2 (valueOf m) < 53 + power m := by
      have hbound : (significand m : ℚ) < 2 ^ (53 : ℤ) := by exact_mod_cast significand_lt m
      rw [← Int.lt_zpow_iff_log_lt (by decide) hvalue, valueOf, Nat.cast_ofNat,
        zpow_add₀ (by norm_num)]
      gcongr
    omega

theorem roundHalfEven_one (n : ℕ) : roundHalfEven n 1 = n := by
  simp [roundHalfEven, Nat.mod_one]

/-- The value of a finite magnitude rounds to that magnitude. -/
theorem nearest_quotient {m : ℕ} (h : m < infinite) :
    nearest (quotient m).1 (quotient m).2 = m := by
  by_cases hm : m = 0
  · subst hm
    rfl
  have hnum : (quotient m).1 ≠ 0 := by
    have hpos := significand_pos hm
    rw [quotient_eq, scaled_eq]
    exact (Nat.mul_pos hpos (by positivity)).ne'
  have hden := quotient_snd_ne_zero m
  have hpower : max (powerOf (quotient m).1 (quotient m).2) (-1074) = power m := by
    rw [powerOf_eq hnum hden, div_quotient, max_log_valueOf hm]
  have hrounded : roundHalfEven (scaled (quotient m).1 (quotient m).2 (power m)).1
      (scaled (quotient m).1 (quotient m).2 (power m)).2 = significand m := by
    have hvalue : ((scaled (quotient m).1 (quotient m).2 (power m)).1 : ℚ) /
        ((scaled (quotient m).1 (quotient m).2 (power m)).2 : ℚ) =
          (significand m : ℚ) / (1 : ℕ) := by
      rw [div_scaled _ hden, div_quotient, valueOf, Nat.cast_one, div_one]
      field_simp
    rw [roundHalfEven_congr (scaled_snd_pos hden _ _) one_pos hvalue, roundHalfEven_one]
  rw [nearest_eq _ hnum, hpower, hrounded]
  have hm' : (power m + 1074).toNat <<< 52 + significand m = m := by
    rw [Nat.shiftLeft_eq, power_eq, significand_eq]
    split <;> omega
  rw [hm']
  exact Nat.min_eq_right h.le

end SkyDiscovery.Binary64
