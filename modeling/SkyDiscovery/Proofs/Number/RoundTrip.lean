import SkyDiscovery.Proofs.Number.Numeral
import SkyDiscovery.Proofs.Number.Rounding

/-!
# Numbers read back

The text of a finite number is a decimal that rounds to it, so it is read back as the same number,
bit for bit.

* `Decimal.nearest_congr`: decimals of equal value round to the same magnitude.
* `Decimal.nearest_shortest`: the shortest decimal of a finite magnitude rounds to it.
* `Binary64.read_write`: a finite number is read from its own text.
-/

namespace SkyDiscovery

open Text

namespace Decimal

/-! ## The value of a decimal -/

theorem value_eq (d : Decimal) : d.value = (d.coefficient : ℚ) * 10 ^ d.exponent := by
  obtain ⟨c, e⟩ := d
  rcases Int.le_total 0 e with he | he
  · obtain ⟨k, rfl⟩ := Int.eq_ofNat_of_zero_le he
    simp only [value]
    rw [show (-(k : ℤ)).toNat = 0 by omega, Int.toNat_natCast, zpow_natCast]
    push_cast
    ring
  · obtain ⟨k, hk⟩ := Int.eq_ofNat_of_zero_le (Int.neg_nonneg.2 he)
    obtain rfl : e = -(k : ℤ) := by omega
    simp only [value]
    rw [show (-(-(k : ℤ))).toNat = k by omega, show (-(k : ℤ)).toNat = 0 by omega, zpow_neg,
      zpow_natCast]
    push_cast
    ring

theorem value_eq_zero_iff (d : Decimal) : d.value = 0 ↔ d.coefficient = 0 := by
  rw [value_eq, mul_eq_zero, Nat.cast_eq_zero]
  constructor
  · rintro (h | h)
    · exact h
    · exact absurd h (by positivity)
  · exact Or.inl

theorem value_pos {d : Decimal} (h : d.coefficient ≠ 0) : 0 < d.value := by
  have : 0 < d.coefficient := Nat.pos_of_ne_zero h
  rw [value_eq]
  positivity

/-- The length of the coefficient says how large the number is. -/
theorem exponent_add_width {d : Decimal} (h : d.coefficient ≠ 0) :
    d.exponent + d.width = Int.log 10 d.value + 1 := by
  have hpos := value_pos h
  have hwidth : 0 < d.width := Nat.length_toDigits_pos
  have hhigh : d.coefficient < 10 ^ d.width :=
    (Nat.length_toDigits_le_iff (by decide) hwidth).1 le_rfl
  have hlow : 10 ^ (d.width - 1) ≤ d.coefficient := by
    by_cases hone : d.width = 1
    · rw [hone]
      exact Nat.pos_of_ne_zero h
    · by_contra hlt
      have := (Nat.length_toDigits_le_iff (b := 10) (by decide) (by omega)).2 (not_le.1 hlt)
      have hlength : d.width ≤ d.width - 1 := this
      omega
  have hlog : d.exponent + (d.width - 1 : ℕ) ≤ Int.log 10 d.value := by
    rw [← Int.zpow_le_iff_le_log (by decide) hpos, value_eq, Nat.cast_ofNat, add_comm,
      zpow_add₀ (by norm_num), zpow_natCast]
    gcongr
    exact_mod_cast hlow
  have hlog' : Int.log 10 d.value < d.exponent + d.width := by
    rw [← Int.lt_zpow_iff_log_lt (by decide) hpos, value_eq, Nat.cast_ofNat, add_comm,
      zpow_add₀ (by norm_num), zpow_natCast]
    gcongr
    exact_mod_cast hhigh
  omega

theorem nearest_eq (d : Decimal) : d.nearest =
    if d.coefficient = 0 then 0
    else if 400 < d.exponent + d.width then Binary64.infinite
    else if d.exponent + d.width < -400 then 0
    else Binary64.nearest (d.coefficient * 10 ^ d.exponent.toNat) (10 ^ (-d.exponent).toNat) :=
  rfl

/-- Rounding goes by the value only. -/
theorem nearest_congr {d d' : Decimal} (h : d.value = d'.value) : d.nearest = d'.nearest := by
  have hzero : d.coefficient = 0 ↔ d'.coefficient = 0 := by
    rw [← value_eq_zero_iff, h, value_eq_zero_iff]
  by_cases hd : d.coefficient = 0
  · rw [nearest_eq, nearest_eq, if_pos hd, if_pos (hzero.1 hd)]
  have hd' : d'.coefficient ≠ 0 := fun h₀ => hd (hzero.2 h₀)
  have hwidth : d.exponent + d.width = d'.exponent + d'.width := by
    rw [exponent_add_width hd, exponent_add_width hd', h]
  have hround : Binary64.nearest (d.coefficient * 10 ^ d.exponent.toNat)
      (10 ^ (-d.exponent).toNat) =
        Binary64.nearest (d'.coefficient * 10 ^ d'.exponent.toNat) (10 ^ (-d'.exponent).toNat) :=
    Binary64.nearest_congr (by positivity) (by positivity) h
  rw [nearest_eq, nearest_eq, if_neg hd, if_neg hd', hwidth, hround]

/-! ## Exact decimals -/

theorem ofMagnitude_eq (m : ℕ) : ofMagnitude m =
    if 0 ≤ Binary64.power m then ⟨Binary64.significand m * 2 ^ (Binary64.power m).toNat, 0⟩
    else ⟨Binary64.significand m * 5 ^ (-Binary64.power m).toNat, Binary64.power m⟩ := by
  rw [ofMagnitude, Nat.shiftLeft_eq]
  rfl

theorem value_ofMagnitude (m : ℕ) : (ofMagnitude m).value = Binary64.valueOf m := by
  rw [ofMagnitude_eq, Binary64.valueOf]
  split
  · next hp =>
    obtain ⟨k, hk⟩ := Int.eq_ofNat_of_zero_le hp
    rw [value_eq, hk, Int.toNat_natCast, zpow_zero, mul_one, zpow_natCast]
    push_cast
    ring
  · next hp =>
    obtain ⟨k, hk⟩ := Int.eq_ofNat_of_zero_le (show 0 ≤ -Binary64.power m by omega)
    obtain hp : Binary64.power m = -(k : ℤ) := by omega
    rw [value_eq, hp, show (-(-(k : ℤ))).toNat = k by omega, zpow_neg, zpow_neg, zpow_natCast,
      zpow_natCast]
    push_cast
    rw [show (10 : ℚ) ^ k = 2 ^ k * 5 ^ k by rw [← mul_pow]; norm_num]
    field_simp

theorem two_pow_le {n : ℕ} (h : n ≤ 1200) : (2 : ℚ) ^ n ≤ 10 ^ 400 := by
  calc (2 : ℚ) ^ n ≤ 2 ^ (3 * 400) := pow_le_pow_right₀ (by norm_num) h
    _ = 8 ^ 400 := by rw [pow_mul]; norm_num
    _ ≤ 10 ^ 400 := by gcongr; norm_num

theorem le_valueOf {m : ℕ} (hm : m ≠ 0) (h : m < Binary64.infinite) :
    ((10 : ℕ) : ℚ) ^ (-400 : ℤ) ≤ Binary64.valueOf m := by
  have hsmall : ((10 : ℕ) : ℚ) ^ (-400 : ℤ) ≤ 2 ^ (-1074 : ℤ) := by
    have hlarge : (2 : ℚ) ^ (1074 : ℤ) ≤ ((10 : ℕ) : ℚ) ^ (400 : ℤ) := by
      exact_mod_cast two_pow_le (n := 1074) (by decide)
    rw [zpow_neg, zpow_neg]
    exact inv_anti₀ (by positivity) hlarge
  have hone : (1 : ℚ) ≤ Binary64.significand m := by exact_mod_cast Binary64.significand_pos hm
  have htwo : (2 : ℚ) ^ (-1074 : ℤ) ≤ 2 ^ Binary64.power m :=
    zpow_le_zpow_right₀ (by norm_num) (Binary64.power_bounds h).1
  calc ((10 : ℕ) : ℚ) ^ (-400 : ℤ) ≤ 1 * 2 ^ (-1074 : ℤ) := by rwa [one_mul]
    _ ≤ Binary64.valueOf m := by
      unfold Binary64.valueOf
      gcongr

theorem valueOf_lt {m : ℕ} (h : m < Binary64.infinite) :
    Binary64.valueOf m < ((10 : ℕ) : ℚ) ^ (400 : ℤ) := by
  have hlarge : (2 : ℚ) ^ (1024 : ℤ) ≤ ((10 : ℕ) : ℚ) ^ (400 : ℤ) := by
    exact_mod_cast two_pow_le (n := 1024) (by decide)
  have hlt : (Binary64.significand m : ℚ) < 2 ^ (53 : ℤ) := by exact_mod_cast Binary64.significand_lt m
  have htwo : (2 : ℚ) ^ Binary64.power m ≤ 2 ^ (971 : ℤ) :=
    zpow_le_zpow_right₀ (by norm_num) (Binary64.power_bounds h).2
  calc Binary64.valueOf m < 2 ^ (53 : ℤ) * 2 ^ Binary64.power m := by
        unfold Binary64.valueOf
        gcongr
    _ ≤ 2 ^ (53 : ℤ) * 2 ^ (971 : ℤ) := by gcongr
    _ = 2 ^ (1024 : ℤ) := by rw [← zpow_add₀ (by norm_num)]; rfl
    _ ≤ _ := hlarge

/-- The magnitudes of finite numbers are far from the bounds beyond which no arithmetic is done. -/
theorem log_valueOf_bounds {m : ℕ} (hm : m ≠ 0) (h : m < Binary64.infinite) :
    -400 ≤ Int.log 10 (Binary64.valueOf m) ∧ Int.log 10 (Binary64.valueOf m) < 400 := by
  have hpos := Binary64.valueOf_pos hm
  rw [← Int.zpow_le_iff_le_log (by decide) hpos, ← Int.lt_zpow_iff_log_lt (by decide) hpos]
  exact ⟨le_valueOf hm h, valueOf_lt h⟩

/-- The exact decimal of a finite magnitude rounds to it. -/
theorem nearest_ofMagnitude {m : ℕ} (h : m < Binary64.infinite) : (ofMagnitude m).nearest = m := by
  by_cases hm : m = 0
  · subst hm
    have hcoefficient : (ofMagnitude 0).coefficient = 0 := by
      rw [← value_eq_zero_iff, value_ofMagnitude, Binary64.valueOf]
      exact (congrArg (fun x : ℚ => x * _) Nat.cast_zero).trans (zero_mul _)
    rw [nearest_eq, if_pos hcoefficient]
  have hcoefficient : (ofMagnitude m).coefficient ≠ 0 := by
    rw [ne_eq, ← value_eq_zero_iff, value_ofMagnitude]
    exact (Binary64.valueOf_pos hm).ne'
  obtain ⟨hlow, hhigh⟩ := log_valueOf_bounds hm h
  have hwidth := exponent_add_width hcoefficient
  rw [value_ofMagnitude] at hwidth
  rw [nearest_eq, if_neg hcoefficient, if_neg (by omega), if_neg (by omega)]
  refine (Binary64.nearest_congr (by positivity) (Binary64.quotient_snd_ne_zero m) ?_).trans
    (Binary64.nearest_quotient h)
  rw [Binary64.div_quotient, ← value_ofMagnitude]
  rfl

/-! ## Shortest decimals -/

theorem value_strip (fuel : ℕ) (d : Decimal) : (strip fuel d).value = d.value := by
  induction fuel generalizing d with
  | zero => rfl
  | succ fuel ih =>
    rw [strip]
    split
    · next h =>
      rw [ih, value_eq, value_eq]
      have hten : d.coefficient = d.coefficient / 10 * 10 := by omega
      conv_rhs => rw [hten]
      rw [zpow_add_one₀ (by norm_num)]
      push_cast
      ring
    · rfl

theorem nearest_of_onGrid? {tie : Tie} {m n : ℕ} {d c : Decimal}
    (h : onGrid? tie m d n = some c) : c.nearest = m := by
  unfold onGrid? at h
  simp only at h
  split at h
  · next hc => exact Option.some.inj h ▸ hc
  · split at h
    · next hc => exact Option.some.inj h ▸ hc
    · split at h
      · next hc => exact Option.some.inj h ▸ hc
      · exact absurd h (by simp)

/-- The shortest decimal of a finite magnitude rounds to it. -/
theorem nearest_shortest (tie : Tie) {m : ℕ} (h : m < Binary64.infinite) :
    (shortest tie m).nearest = m := by
  have hfound : (((List.range 17).findSome? fun n => onGrid? tie m (ofMagnitude m) (n + 1)).getD
      (ofMagnitude m)).nearest = m := by
    cases hc : (List.range 17).findSome? fun n => onGrid? tie m (ofMagnitude m) (n + 1) with
    | none => exact nearest_ofMagnitude h
    | some c =>
      obtain ⟨n, -, hn⟩ := List.exists_of_findSome?_eq_some hc
      exact nearest_of_onGrid? hn
  rw [shortest]
  exact (nearest_congr (value_strip _ _)).trans hfound

/-! ## Reading what was written -/

theorem valueOfDigits_append (start : ℕ) (cs ds : List Char) :
    valueOfDigits start (cs ++ ds) = valueOfDigits (valueOfDigits start cs) ds := by
  rw [valueOfDigits, List.foldl_append]
  rfl

theorem valueOfDigits_zeros (start n : ℕ) :
    valueOfDigits start (List.replicate n '0') = start * 10 ^ n := by
  induction n generalizing start with
  | zero => simp [valueOfDigits]
  | succ n ih =>
    have hzero : digitValue '0' = 0 := by decide
    rw [List.replicate_succ, valueOfDigits, List.foldl_cons, ← valueOfDigits, ih, hzero]
    ring

theorem valueOfDigits_digits (n : ℕ) : valueOfDigits 0 (digits n) = n := by
  have hfold : valueOfDigits 0 (digits n) = Nat.ofDigitChars 10 (digits n) 0 := by
    rw [Nat.ofDigitChars_eq_foldl, valueOfDigits]
    congr 1
    funext a c
    rw [digitValue, Nat.mul_comm]
    rfl
  rw [hfold]
  exact Nat.ofDigitChars_ten_toDigits

theorem isDigit_of_mem_zeros {n : ℕ} {x : Char} (h : x ∈ List.replicate n '0') : x.isDigit := by
  rw [List.eq_of_mem_replicate h]
  decide

/-- All digits stand behind the point, after zeros. -/
theorem read_placed_behind (c zeros : ℕ) :
    Decimal.read ('0' :: '.' :: (List.replicate zeros '0' ++ digits c)) =
      some ⟨c, -(zeros + (digits c).length : ℕ)⟩ := by
  have hplaces : ∀ x ∈ List.replicate zeros '0' ++ digits c, x.isDigit := by
    intro x hx
    rcases List.mem_append.1 hx with hx | hx
    · exact isDigit_of_mem_zeros hx
    · exact isDigit_of_mem_digits hx
  have hcoefficient :
      valueOfDigits 0 (['0'] ++ (List.replicate zeros '0' ++ digits c)) = c := by
    have hzero : valueOfDigits 0 ['0'] = 0 := by decide
    rw [valueOfDigits_append, valueOfDigits_append, hzero, valueOfDigits_zeros, zero_mul,
      valueOfDigits_digits]
  have hread := @read_places ['0'] _ (by simp) (by decide) hplaces
  rw [hcoefficient, List.length_append, List.length_replicate] at hread
  exact hread

/-- All digits stand before the point, with zeros after them. -/
theorem exists_read_placed_whole (c zeros : ℕ) :
    ∃ d, Decimal.read (digits c ++ List.replicate zeros '0') = some d ∧
      d.value = value ⟨c, zeros⟩ := by
  have hall : ∀ x ∈ digits c ++ List.replicate zeros '0', x.isDigit := by
    intro x hx
    rcases List.mem_append.1 hx with hx | hx
    · exact isDigit_of_mem_digits hx
    · exact isDigit_of_mem_zeros hx
  refine ⟨_, read_whole (by simp [digits_ne_nil]) hall, ?_⟩
  rw [value_eq, value_eq, valueOfDigits_append, valueOfDigits_digits, valueOfDigits_zeros,
    zpow_zero, mul_one, zpow_natCast]
  push_cast
  rfl

/-- The point stands among the digits. -/
theorem read_placed_between (c : ℕ) {k : ℕ} (hk : k ≠ 0) :
    Decimal.read ((digits c).take k ++ '.' :: (digits c).drop k) =
      some ⟨c, -((digits c).length - k : ℕ)⟩ := by
  have htake : (digits c).take k ≠ [] := by
    rw [ne_eq, List.take_eq_nil_iff, not_or]
    exact ⟨hk, digits_ne_nil c⟩
  rw [read_places htake (fun x hx => isDigit_of_mem_digits (List.mem_of_mem_take hx))
    (fun x hx => isDigit_of_mem_digits (List.mem_of_mem_drop hx)), List.take_append_drop,
    valueOfDigits_digits, List.length_drop]

/-- Digits written in full are read as a decimal of the same value. -/
theorem read_placed (c : ℕ) (e : ℤ) :
    ∃ d, Decimal.read (Layout.placed false (digits c) (e + (digits c).length)) = some d ∧
      d.value = value ⟨c, e⟩ := by
  unfold Layout.placed
  by_cases hpoint : e + (digits c).length ≤ 0
  · rw [if_pos hpoint]
    refine ⟨_, read_placed_behind c _, ?_⟩
    have hexponent : -(((-(e + (digits c).length)).toNat + (digits c).length : ℕ) : ℤ) = e := by
      omega
    rw [hexponent]
  rw [if_neg hpoint]
  by_cases hwhole : ((digits c).length : ℤ) ≤ e + (digits c).length
  · rw [if_pos hwhole, if_neg (by decide), List.append_nil]
    obtain ⟨d, hd, hvalue⟩ :=
      exists_read_placed_whole c ((e + (digits c).length).toNat - (digits c).length)
    have hexponent : (((e + (digits c).length).toNat - (digits c).length : ℕ) : ℤ) = e := by omega
    exact ⟨d, hd, by rw [hvalue, hexponent]⟩
  · rw [if_neg hwhole]
    refine ⟨_, read_placed_between c (by omega), ?_⟩
    have hexponent : -(((digits c).length - (e + (digits c).length).toNat : ℕ) : ℤ) = e := by
      omega
    rw [hexponent]

/-- The text of a magnitude is read as a decimal of the value of its shortest one. -/
theorem exists_read_writeMagnitude (m : ℕ) :
    ∃ d, Decimal.read (Layout.plain.writeMagnitude m) = some d ∧
      d.value = (shortest .upward m).value := by
  unfold Layout.writeMagnitude
  by_cases hm : m = 0
  · rw [if_pos hm, if_neg (by decide), hm]
    have hzero : (shortest .upward 0).value = 0 := (value_eq_zero_iff _).2 (by decide +kernel)
    exact ⟨⟨0, 0⟩, by decide, by rw [hzero, value_eq_zero_iff]⟩
  · rw [if_neg hm]
    obtain ⟨d, hd, hvalue⟩ :=
      read_placed (shortest .upward m).coefficient (shortest .upward m).exponent
    refine ⟨d, ?_, hvalue⟩
    rw [← hd]
    simp [Layout.plain]

/-- The text of the magnitude of a finite number is read as a decimal that rounds to it. -/
theorem read_writeMagnitude {m : ℕ} (h : m < Binary64.infinite) :
    ∃ d, Decimal.read (Layout.plain.writeMagnitude m) = some d ∧ d.nearest = m := by
  obtain ⟨d, hd, hvalue⟩ := exists_read_writeMagnitude m
  exact ⟨d, hd, (nearest_congr hvalue).trans (nearest_shortest .upward h)⟩

end Decimal

namespace Binary64

theorem ofMagnitude_isNegative_magnitude (x : Binary64) :
    ofMagnitude x.isNegative x.magnitude = x := by
  obtain ⟨b⟩ := x
  have hb : b.toNat < 2 ^ 64 := b.toNat_lt
  have hbits : (if isNegative ⟨b⟩ then 0x8000_0000_0000_0000 + magnitude ⟨b⟩
      else magnitude ⟨b⟩) = b.toNat := by
    simp only [isNegative, magnitude, decide_eq_true_eq]
    split <;> omega
  rw [ofMagnitude, hbits, UInt64.ofNat_toNat]

theorem readUnsigned_writeMagnitude (negative : Bool) {m : ℕ} (h : m < infinite) :
    readUnsigned negative (Layout.plain.writeMagnitude m) = some (ofMagnitude negative m) := by
  obtain ⟨d, hd, hm⟩ := Decimal.read_writeMagnitude h
  rw [readUnsigned, hd]
  simp only [hm]

theorem read_of_isDigit {d : Char} (h : d.isDigit) (ds : List Char) :
    read (d :: ds) = readUnsigned false (d :: ds) := by
  unfold read
  split
  · next heq => exact absurd h (by rw [(List.cons.inj heq).1]; decide)
  · next heq => exact absurd h (by rw [(List.cons.inj heq).1]; decide)
  · rfl

/-- A finite number is read from its own text, with its sign. -/
theorem read_write {x : Binary64} (h : x.isFinite) : read (Layout.plain.write x) = some x := by
  have hm : x.magnitude < infinite := by simpa [isFinite] using h
  have hnan : x.isNaN = false := by
    simp only [isNaN, decide_eq_false_iff_not]
    omega
  rw [Layout.write, hnan, if_neg (by decide), h, if_pos rfl]
  have hback := ofMagnitude_isNegative_magnitude x
  cases hneg : x.isNegative with
  | true =>
    rw [hneg] at hback
    simp only [if_true, read, readUnsigned_writeMagnitude true hm, hback]
  | false =>
    rw [hneg] at hback
    obtain ⟨d, ds, hds, hd⟩ := (plainNumeral_writeMagnitude x.magnitude).head
    simp only [Bool.false_eq_true, if_false]
    rw [hds, read_of_isDigit hd, ← hds, readUnsigned_writeMagnitude false hm, hback]

end Binary64

end SkyDiscovery
