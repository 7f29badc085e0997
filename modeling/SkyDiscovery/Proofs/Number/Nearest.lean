import SkyDiscovery.Proofs.Number.Double
import SkyDiscovery.Proofs.Number.RoundTrip

/-!
# The nearest double

A number is rounded to the magnitude nearest to it, and of two that are equally near to the even
one, as if there were magnitudes for all powers of two; where the one that is found has no finite
double, it becomes infinity.  A decimal is rounded by its value.

* `Binary64.IsNearest.unique`: there is only one nearest magnitude.
* `Binary64.exists_isNearest_nearest`: the search for it finds it.
* `Binary64.IsNearest.infinite_le_iff`: which numbers are too large for a finite double.
* `Decimal.exists_isNearest_nearest`: the double of a decimal is the nearest one.
-/

namespace SkyDiscovery

namespace Binary64

/-- No magnitude is nearer to the number, and if another one is as near, this one is even.  The
magnitudes from that of infinity on have the values that larger powers of two would give them. -/
structure IsNearest (q : ℚ) (m : ℕ) : Prop where
  le (n : ℕ) : |valueOf m - q| ≤ |valueOf n - q|
  even_of_eq (n : ℕ) : n ≠ m → |valueOf n - q| = |valueOf m - q| → m % 2 = 0

namespace IsNearest

variable {q : ℚ} {m n : ℕ}

/-- It is enough to look at the two magnitudes that a number stands between. -/
theorem of_neighbours {b : ℕ} (hlow : valueOf b ≤ q) (hhigh : q ≤ valueOf (b + 1))
    (hm : m = b ∨ m = b + 1) (hle : |valueOf m - q| ≤ |valueOf b - q|)
    (hle' : |valueOf m - q| ≤ |valueOf (b + 1) - q|)
    (heven : |valueOf b - q| = |valueOf (b + 1) - q| → m % 2 = 0) : IsNearest q m := by
  have hbelow {n : ℕ} (hn : n ≤ b) :
      |valueOf b - q| ≤ |valueOf n - q| ∧ (|valueOf n - q| = |valueOf b - q| → n = b) := by
    have hvalue := valueOf_strictMono.monotone hn
    rw [abs_of_nonpos (by linarith), abs_of_nonpos (by linarith)]
    exact ⟨by linarith, fun h => valueOf_strictMono.injective (by linarith)⟩
  have habove {n : ℕ} (hn : b + 1 ≤ n) :
      |valueOf (b + 1) - q| ≤ |valueOf n - q| ∧
        (|valueOf n - q| = |valueOf (b + 1) - q| → n = b + 1) := by
    have hvalue := valueOf_strictMono.monotone hn
    rw [abs_of_nonneg (by linarith), abs_of_nonneg (by linarith)]
    exact ⟨by linarith, fun h => valueOf_strictMono.injective (by linarith)⟩
  constructor
  case le =>
    intro n
    rcases Nat.lt_or_ge b n with hn | hn
    · exact hle'.trans (habove hn).1
    · exact hle.trans (hbelow hn).1
  case even_of_eq =>
    intro n hn h
    rcases Nat.lt_or_ge b n with hn' | hn'
    · obtain rfl : n = b + 1 := (habove hn').2 (le_antisymm (h ▸ hle') (habove hn').1)
      obtain rfl : m = b := hm.resolve_right (Ne.symm hn)
      exact heven h.symm
    · obtain rfl : n = b := (hbelow hn').2 (le_antisymm (h ▸ hle) (hbelow hn').1)
      obtain rfl : m = n + 1 := hm.resolve_left (Ne.symm hn)
      exact heven h

theorem not_lt (h : IsNearest q m) (h' : IsNearest q n) : ¬ m < n := by
  intro hlt
  have heq : |valueOf m - q| = |valueOf n - q| := le_antisymm (h.le n) (h'.le m)
  have hm : m % 2 = 0 := h.even_of_eq n hlt.ne' heq.symm
  have hn : n % 2 = 0 := h'.even_of_eq m hlt.ne heq
  -- two even magnitudes are not neighbours, and one between them is nearer
  have hlow := valueOf_strictMono (Nat.lt_succ_self m)
  have hhigh : valueOf (m + 1) < valueOf n := valueOf_strictMono (by omega)
  have hmiddle : q - valueOf m = valueOf n - q := by
    rcases abs_eq_abs.1 heq with h₀ | h₀
    · linarith
    · linarith
  have hnearer : |valueOf (m + 1) - q| < q - valueOf m := abs_lt.2 ⟨by linarith, by linarith⟩
  have hle := h.le (m + 1)
  rw [abs_sub_comm, abs_of_nonneg (by linarith)] at hle
  linarith

/-- There is only one nearest magnitude. -/
theorem unique (h : IsNearest q m) (h' : IsNearest q n) : m = n :=
  le_antisymm (Nat.not_lt.1 (h'.not_lt h)) (Nat.not_lt.1 (h.not_lt h'))

end IsNearest

/-! ## Rounding a quotient -/

/-- The values of the magnitudes with one power of two, the next one included. -/
theorem valueOf_grid {k n : ℕ} (hn : n ≤ 2 ^ 53) (hnormal : k = 0 ∨ 2 ^ 52 ≤ n) :
    valueOf (k * 2 ^ 52 + n) = n * 2 ^ ((k : ℤ) - 1074) := by
  rcases Nat.lt_or_ge n (2 ^ 53) with hlt | hge
  · have hsignificand : significand (k * 2 ^ 52 + n) = n := by
      rw [significand_eq]
      split_ifs <;> omega
    have hpower : power (k * 2 ^ 52 + n) = k - 1074 := by
      rw [power_eq]
      split_ifs <;> omega
    rw [valueOf, hsignificand, hpower]
  · obtain rfl : n = 2 ^ 53 := le_antisymm hn hge
    have hsignificand : significand (k * 2 ^ 52 + 2 ^ 53) = 2 ^ 52 := by
      rw [significand_eq, if_neg (by omega)]
      omega
    have hpower : power (k * 2 ^ 52 + 2 ^ 53) = k - 1074 + 1 := by
      rw [power_eq, if_neg (by omega)]
      omega
    rw [valueOf, hsignificand, hpower, zpow_add_one₀ (by norm_num)]
    push_cast
    ring

/-- A quotient divided by its power of two has 53 bits at most, and 53 unless the power is the least
one. -/
theorem scaled_bounds {num den : ℕ} {p : ℤ} (h : num ≠ 0) (hden : den ≠ 0)
    (hp : p = max (powerOf num den) (-1074)) :
    (scaled num den p).1 / (scaled num den p).2 < 2 ^ 53 ∧
      (p = -1074 ∨ 2 ^ 52 ≤ (scaled num den p).1 / (scaled num den p).2) := by
  have hq := cast_div_pos h hden
  have hpos := scaled_snd_pos hden num p
  rw [powerOf_eq h hden] at hp
  rw [Nat.div_lt_iff_lt_mul hpos, Nat.le_div_iff_mul_le hpos, ← not_le, le_scaled_iff num hden,
    le_scaled_iff num hden, not_le]
  constructor
  · have hlog : Int.log 2 ((num : ℚ) / den) < 53 + p := by omega
    rw [← Int.lt_zpow_iff_log_lt (by decide) hq, Nat.cast_ofNat, zpow_add₀ (by norm_num)] at hlog
    exact_mod_cast hlog
  · rcases max_choice (Int.log 2 ((num : ℚ) / den) - 52) (-1074) with hmax | hmax
    · right
      have hlog : 52 + p ≤ Int.log 2 ((num : ℚ) / den) := by omega
      rw [← Int.zpow_le_iff_le_log (by decide) hq, Nat.cast_ofNat, zpow_add₀ (by norm_num)] at hlog
      exact_mod_cast hlog
    · exact .inl (hp.trans hmax)

section Quotient

variable (num : ℕ) {den : ℕ} (hden : 0 < den)
include hden

theorem div_eq_floor_add : (num : ℚ) / den = (num / den : ℕ) + (num % den : ℕ) / den := by
  have hden' : (den : ℚ) ≠ 0 := by exact_mod_cast hden.ne'
  rw [div_eq_iff hden', add_mul, div_mul_cancel₀ _ hden']
  exact_mod_cast (Nat.div_add_mod' num den).symm

theorem abs_floor_sub : |((num / den : ℕ) : ℚ) - num / den| = (num % den : ℕ) / den := by
  rw [div_eq_floor_add num hden, sub_add_cancel_left, abs_neg, abs_of_nonneg (by positivity)]

theorem abs_succ_floor_sub :
    |((num / den + 1 : ℕ) : ℚ) - num / den| = (den - num % den : ℕ) / den := by
  have hden' : (0 : ℚ) < den := by exact_mod_cast hden
  have hrest := (Nat.mod_lt num hden).le
  have hone : ((num % den : ℕ) : ℚ) / den ≤ 1 := by
    rw [div_le_one hden']
    exact_mod_cast hrest
  rw [div_eq_floor_add num hden, Nat.cast_add_one, add_sub_add_left_eq_sub,
    abs_of_nonneg (by linarith), Nat.cast_sub hrest, sub_div, div_self hden'.ne']

/-- A quotient is rounded to the nearer of the two whole numbers that it stands between, a half to
the even one. -/
theorem roundHalfEven_spec :
    (roundHalfEven num den = num / den ∨ roundHalfEven num den = num / den + 1) ∧
      |(roundHalfEven num den : ℚ) - num / den| ≤ |((num / den : ℕ) : ℚ) - num / den| ∧
      |(roundHalfEven num den : ℚ) - num / den| ≤ |((num / den + 1 : ℕ) : ℚ) - num / den| ∧
      (|((num / den : ℕ) : ℚ) - num / den| = |((num / den + 1 : ℕ) : ℚ) - num / den| →
        roundHalfEven num den % 2 = 0) := by
  have hden' : (0 : ℚ) < den := by exact_mod_cast hden
  have hrest := Nat.mod_lt num hden
  have hbelow := abs_floor_sub num hden
  have habove := abs_succ_floor_sub num hden
  have hle (a b : ℕ) : (a : ℚ) / den ≤ b / den ↔ a ≤ b := by
    rw [div_le_div_iff_of_pos_right hden', Nat.cast_le]
  rw [hbelow, habove, div_left_inj' hden'.ne', Nat.cast_inj]
  unfold roundHalfEven
  dsimp only
  split_ifs with hless hmore
  · rw [hbelow, hle, hle]
    exact ⟨.inl rfl, le_rfl, by omega, fun h => by omega⟩
  · rw [habove, hle, hle]
    exact ⟨.inr rfl, by omega, le_rfl, fun h => by omega⟩
  · rcases Nat.mod_two_eq_zero_or_one (num / den) with heven | hodd
    · rw [heven, Nat.add_zero, hbelow, hle, hle]
      exact ⟨.inl rfl, le_rfl, by omega, fun _ => heven⟩
    · rw [hodd, habove, hle, hle]
      exact ⟨.inr rfl, by omega, le_rfl, fun _ => by omega⟩

end Quotient

/-- Rounding to a whole number of the least units is rounding to the magnitude. -/
theorem isNearest_of_rounded {q : ℚ} {k floor rounded : ℕ} {p : ℤ} (hk : p = k - 1074)
    (hbits : floor < 2 ^ 53) (hnormal : k = 0 ∨ 2 ^ 52 ≤ floor)
    (hlow : (floor : ℚ) * 2 ^ p ≤ q) (hhigh : q ≤ ((floor + 1 : ℕ) : ℚ) * 2 ^ p)
    (hround : rounded = floor ∨ rounded = floor + 1)
    (hle : |(rounded : ℚ) - q / 2 ^ p| ≤ |(floor : ℚ) - q / 2 ^ p|)
    (hle' : |(rounded : ℚ) - q / 2 ^ p| ≤ |((floor + 1 : ℕ) : ℚ) - q / 2 ^ p|)
    (heven : |(floor : ℚ) - q / 2 ^ p| = |((floor + 1 : ℕ) : ℚ) - q / 2 ^ p| → rounded % 2 = 0) :
    IsNearest q (k * 2 ^ 52 + rounded) := by
  have htwo : (0 : ℚ) < 2 ^ p := by positivity
  have hgrid (n : ℕ) (hn : n = floor ∨ n = floor + 1) :
      valueOf (k * 2 ^ 52 + n) = n * 2 ^ p := by
    rw [valueOf_grid (by omega) (by omega), hk]
  have hdistance (n : ℕ) (hn : n = floor ∨ n = floor + 1) :
      |valueOf (k * 2 ^ 52 + n) - q| = |(n : ℚ) - q / 2 ^ p| * 2 ^ p := by
    rw [hgrid n hn, ← abs_of_pos htwo, ← abs_mul, abs_of_pos htwo, sub_mul,
      div_mul_cancel₀ _ htwo.ne']
  have hbelow := hdistance floor (.inl rfl)
  have habove := hdistance (floor + 1) (.inr rfl)
  have hfound := hdistance rounded hround
  refine .of_neighbours (b := k * 2 ^ 52 + floor) ?_ ?_ (by omega) ?_ ?_ ?_
  · rwa [hgrid floor (.inl rfl)]
  · rwa [Nat.add_assoc, hgrid (floor + 1) (.inr rfl)]
  · rw [hfound, hbelow]
    exact mul_le_mul_of_nonneg_right hle htwo.le
  · rw [Nat.add_assoc, hfound, habove]
    exact mul_le_mul_of_nonneg_right hle' htwo.le
  · rw [Nat.add_assoc, hbelow, habove]
    intro h
    have hparity := heven (mul_right_cancel₀ htwo.ne' h)
    omega

theorem isNearest_zero : IsNearest 0 0 where
  le n := by
    rw [valueOf_zero, sub_zero, abs_zero]
    exact abs_nonneg _
  even_of_eq _ _ _ := rfl

/-- Rounding a quotient finds the magnitude nearest to it. -/
theorem exists_isNearest_nearest (num : ℕ) {den : ℕ} (hden : den ≠ 0) :
    ∃ m, IsNearest ((num : ℚ) / den) m ∧ nearest num den = min infinite m := by
  by_cases hnum : num = 0
  · rw [hnum, Nat.cast_zero, zero_div, nearest, if_pos rfl]
    exact ⟨0, isNearest_zero, rfl⟩
  obtain ⟨p, hp⟩ : ∃ p, p = max (powerOf num den) (-1074) := ⟨_, rfl⟩
  obtain ⟨k, hk⟩ : ∃ k : ℕ, p = k - 1074 := ⟨(p + 1074).toNat, by omega⟩
  obtain ⟨hbits, hnormal⟩ := scaled_bounds hnum hden hp
  have hpos := scaled_snd_pos hden num p
  have hlow := (le_scaled_iff num hden p _).1 (Nat.div_mul_le_self _ _)
  have hhigh := mt (le_scaled_iff num hden p _).2
    (Nat.not_le.2 (Nat.mul_comm _ _ ▸ Nat.lt_mul_div_succ (scaled num den p).1 hpos))
  obtain ⟨hround, hle, hle', heven⟩ := roundHalfEven_spec (scaled num den p).1 hpos
  rw [div_scaled num hden p] at hle hle' heven
  refine ⟨_, isNearest_of_rounded hk hbits (hnormal.imp_left (by omega)) hlow (not_le.1 hhigh).le
    hround hle hle' heven, ?_⟩
  rw [nearest_eq den hnum, ← hp, Nat.shiftLeft_eq, hk, Int.sub_add_cancel, Int.toNat_natCast]

/-! ## Large numbers -/

theorem two_pow_eq_mul (n : ℕ) (p : ℤ) {r : ℕ} (h : n + p = r) :
    ((2 ^ n : ℕ) : ℚ) * 2 ^ p = 2 ^ r := by
  rw [Nat.cast_pow, Nat.cast_ofNat, ← zpow_natCast, ← zpow_natCast, ← zpow_add₀ (by norm_num), h]

theorem valueOf_infinite : valueOf infinite = 2 ^ 1024 := by
  have h := @valueOf_grid 2046 (2 ^ 52) (by norm_num) (.inr le_rfl)
  rwa [two_pow_eq_mul 52 _ (r := 1024) rfl] at h

theorem valueOf_greatest : valueOf (infinite - 1) = 2 ^ 1024 - 2 ^ 971 := by
  have h := @valueOf_grid 2045 (2 ^ 53 - 1) (by norm_num) (.inr (by norm_num))
  rwa [Nat.cast_sub (by norm_num), sub_mul, two_pow_eq_mul 53 _ (r := 1024) rfl, Nat.cast_one,
    one_mul, show ((2045 : ℕ) : ℤ) - 1074 = (971 : ℕ) from rfl, zpow_natCast] at h

/-- A number is rounded to infinity from the middle between the greatest finite double and the next
power of two on. -/
theorem IsNearest.infinite_le_iff {q : ℚ} {m : ℕ} (h : IsNearest q m) :
    infinite ≤ m ↔ 2 ^ 1024 - 2 ^ 970 ≤ q := by
  obtain ⟨middle, hmiddle⟩ : ∃ middle : ℚ, middle = 2 ^ 1024 - 2 ^ 970 := ⟨_, rfl⟩
  have hsum : valueOf (infinite - 1) + valueOf infinite = 2 * middle := by
    rw [valueOf_greatest, valueOf_infinite, hmiddle, show (2 : ℚ) ^ 971 = 2 * 2 ^ 970 from
      pow_succ' 2 970]
    generalize (2 : ℚ) ^ 1024 = next, (2 : ℚ) ^ 970 = half
    ring
  have hgap : valueOf (infinite - 1) < valueOf infinite := valueOf_strictMono (by decide)
  rw [← hmiddle]
  constructor
  · intro hm
    by_contra hq
    have hvalue : valueOf infinite ≤ valueOf m := valueOf_strictMono.monotone hm
    have hnearer : |valueOf (infinite - 1) - q| < valueOf m - q :=
      abs_lt.2 ⟨by linarith, by linarith⟩
    have hle := h.le (infinite - 1)
    rw [abs_of_nonneg (by linarith)] at hle
    linarith
  · intro hq
    by_contra hm
    have hvalue : valueOf m ≤ valueOf (infinite - 1) := valueOf_strictMono.monotone (by omega)
    have hdist : |valueOf m - q| = q - valueOf m := by
      rw [abs_sub_comm, abs_of_nonneg (by linarith)]
    have hlast : m = infinite - 1 := by
      have hle := h.le (infinite - 1)
      rw [hdist, abs_sub_comm, abs_of_nonneg (by linarith)] at hle
      exact valueOf_strictMono.injective (by linarith)
    have hlevel : |valueOf infinite - q| = |valueOf m - q| := by
      refine le_antisymm ?_ (h.le infinite)
      rw [hdist]
      exact abs_le.2 ⟨by linarith, by linarith⟩
    have heven := h.even_of_eq infinite (by omega) hlevel
    rw [hlast] at heven
    exact absurd heven (by decide)

end Binary64

/-! ## Decimals -/

namespace Decimal

theorem infinite_le_of_large {d : Decimal} {m : ℕ} (hm : Binary64.IsNearest d.value m)
    (hzero : d.coefficient ≠ 0) (hlarge : 400 < d.exponent + d.width) : Binary64.infinite ≤ m := by
  have hlog : (400 : ℤ) ≤ Int.log 10 d.value := by
    have := exponent_add_width hzero
    omega
  rw [← Int.zpow_le_iff_le_log (by decide) (value_pos hzero)] at hlog
  rw [hm.infinite_le_iff]
  calc (2 : ℚ) ^ 1024 - 2 ^ 970 ≤ 2 ^ 1024 := sub_le_self _ (by positivity)
    _ ≤ 10 ^ 400 := two_pow_le (by decide)
    _ ≤ d.value := by exact_mod_cast hlog

theorem eq_zero_of_small {d : Decimal} {m : ℕ} (hm : Binary64.IsNearest d.value m)
    (hzero : d.coefficient ≠ 0) (hsmall : d.exponent + d.width < -400) : m = 0 := by
  have hpos := value_pos hzero
  have hlog : Int.log 10 d.value < -401 := by
    have := exponent_add_width hzero
    omega
  rw [← Int.lt_zpow_iff_log_lt (by decide) hpos] at hlog
  have hten : ((10 : ℕ) : ℚ) ^ (-400 : ℤ) = 10 * ((10 : ℕ) : ℚ) ^ (-401 : ℤ) := by
    rw [Nat.cast_ofNat, ← zpow_one_add₀ (by norm_num)]
    rfl
  by_contra hne
  have hleast := le_valueOf (m := 1) (by decide) (by decide)
  have hvalue : Binary64.valueOf 1 ≤ Binary64.valueOf m :=
    Binary64.valueOf_strictMono.monotone (Nat.pos_of_ne_zero hne)
  have hle := hm.le 0
  rw [hten] at hleast
  rw [Binary64.valueOf_zero, zero_sub, abs_neg, abs_of_pos hpos, abs_of_nonneg (by linarith)] at hle
  linarith

/-- The double magnitude of a decimal is the one nearest to its value. -/
theorem exists_isNearest_nearest (d : Decimal) :
    ∃ m, Binary64.IsNearest d.value m ∧ d.nearest = min Binary64.infinite m := by
  have hten : 10 ^ (-d.exponent).toNat ≠ 0 := by positivity
  obtain ⟨m, hm, hnearest⟩ :=
    Binary64.exists_isNearest_nearest (d.coefficient * 10 ^ d.exponent.toNat) hten
  change Binary64.IsNearest d.value m at hm
  refine ⟨m, hm, ?_⟩
  rw [nearest_eq]
  split_ifs with hzero hlarge hsmall
  · rw [(value_eq_zero_iff d).2 hzero] at hm
    rw [hm.unique Binary64.isNearest_zero, Nat.min_eq_right (Nat.zero_le _)]
  · rw [Nat.min_eq_left (infinite_le_of_large hm hzero hlarge)]
  · rw [eq_zero_of_small hm hzero hsmall, Nat.min_eq_right (Nat.zero_le _)]
  · exact hnearest

end Decimal

end SkyDiscovery
