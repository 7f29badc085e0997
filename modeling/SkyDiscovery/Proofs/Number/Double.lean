import Mathlib
import SkyDiscovery.Proofs.Number.Exact
import SkyDiscovery.Proofs.Number.Finite
import SkyDiscovery.Proofs.Number.Rounding

/-!
# Doubles and the numbers they stand for

A finite double stands for the number that its bits do, and finite doubles are compared as these
numbers are.

* `Binary64.ofFloat_toFloat`: the bits of a finite number survive in the double made of them.
* `Binary64.toRat_le_iff`: the order of numbers by sign and magnitude.
* `Float64.le_iff`, `Float64.lt_iff`, `Float64.beq_iff`: comparing finite doubles is comparing their
  values.
-/

namespace SkyDiscovery

namespace Binary64

open Float.Model Float.Model.UnpackedFloat

/-! ## Doubles of given bits -/

theorem ofFloat_toFloat {x : Binary64} (h : x.isFinite) : ofFloat x.toFloat = x := by
  have hvalid : Format.binary64.Valid x.bits.toBitVec :=
    ⟨fun hexponent => absurd hexponent ((isFinite_iff_unpackExponent x).1 h)⟩
  have hbits : x.toFloat.toBits.toBitVec = x.bits.toBitVec := pack_unpack_of_valid hvalid
  exact congrArg Binary64.mk (UInt64.toBitVec_inj.1 hbits)

/-- The bits of an infinity or a NaN give an infinity or a NaN. -/
theorem isFinite_toFloat (x : Binary64) : x.toFloat.isFinite = x.isFinite := by
  cases h : x.isFinite with
  | true => rw [← isFinite_ofFloat, ofFloat_toFloat h, h]
  | false =>
    have hexponent : @unpackExponent .binary64 x.bits.toBitVec = -1#11 := by
      by_contra hne
      rw [(isFinite_iff_unpackExponent x).2 hne] at h
      cases h
    have hpack : x.toFloat.toBits.toBitVec = _ := @pack_unpack .binary64 x.bits.toBitVec (by decide)
    have hfinite : (unpack .binary64 x.toFloat.toBits.toBitVec).isFinite = false := by
      rw [hpack]
      split
      · rw [unpack_packedNaN]
        rfl
      · rw [Bool.eq_false_iff, ne_eq, isFinite_unpack_iff, not_not]
        exact hexponent
    exact hfinite

/-! ## The order of numbers -/

theorem valueOf_zero : valueOf 0 = 0 := by
  rw [valueOf, significand_eq, if_pos (by decide), Nat.cast_zero, zero_mul]

theorem valueOf_lt_succ (m : ℕ) : valueOf m < valueOf (m + 1) := by
  have hpos : (0 : ℚ) < 2 ^ power m := by positivity
  -- the power goes up by one just where the significand starts again at the least normal one
  by_cases hcarry : power (m + 1) = power m
  · have hsignificand : significand m < significand (m + 1) := by
      rw [power_eq, power_eq] at hcarry
      rw [significand_eq, significand_eq]
      split_ifs at hcarry ⊢ <;> omega
    rw [valueOf, valueOf, hcarry]
    gcongr
  · have hpower : power (m + 1) = power m + 1 := by
      rw [power_eq, power_eq] at hcarry ⊢
      split_ifs at hcarry ⊢ <;> omega
    have hsignificand : significand m < significand (m + 1) * 2 := by
      have hlt := significand_lt m
      rw [power_eq, power_eq] at hcarry
      rw [significand_eq (m + 1)]
      split_ifs at hcarry ⊢ <;> omega
    calc valueOf m = significand m * 2 ^ power m := rfl
      _ < (significand (m + 1) * 2 : ℕ) * 2 ^ power m := by gcongr
      _ = valueOf (m + 1) := by
        rw [valueOf, hpower, zpow_add₀ (by norm_num), zpow_one]
        push_cast
        ring

theorem valueOf_strictMono : StrictMono valueOf :=
  strictMono_nat_of_lt_succ valueOf_lt_succ

/-- The magnitude with its sign; the two zeros have the same. -/
def amount (x : Binary64) : ℤ :=
  if x.isNegative then -(x.magnitude : ℤ) else x.magnitude

theorem toRat_eq (x : Binary64) :
    x.toRat = if x.isNegative then -valueOf x.magnitude else valueOf x.magnitude := by
  rw [← div_quotient]
  rfl

theorem toRat_le_iff (x y : Binary64) : x.toRat ≤ y.toRat ↔ x.amount ≤ y.amount := by
  have hle (m n : ℕ) : valueOf m ≤ valueOf n ↔ m ≤ n := valueOf_strictMono.le_iff_le
  have hnonneg (m : ℕ) : 0 ≤ valueOf m := valueOf_zero ▸ (hle 0 m).2 (Nat.zero_le m)
  have hzero (m : ℕ) : valueOf m ≤ 0 ↔ m = 0 := by
    rw [← valueOf_zero, hle, Nat.le_zero]
  rw [toRat_eq, toRat_eq, amount, amount]
  have hx := hnonneg x.magnitude
  have hy := hnonneg y.magnitude
  by_cases hnx : x.isNegative <;> by_cases hny : y.isNegative
  · rw [if_pos hnx, if_pos hny, if_pos hnx, if_pos hny, neg_le_neg_iff, neg_le_neg_iff, hle,
      Nat.cast_le]
  · rw [if_pos hnx, if_neg hny, if_pos hnx, if_neg hny]
    exact iff_of_true (by linarith) (by omega)
  · rw [if_neg hnx, if_pos hny, if_neg hnx, if_pos hny]
    constructor
    · intro h
      have hmx := (hzero x.magnitude).1 (by linarith)
      have hmy := (hzero y.magnitude).1 (by linarith)
      omega
    · intro h
      obtain ⟨hmx, hmy⟩ : x.magnitude = 0 ∧ y.magnitude = 0 := by omega
      rw [hmx, hmy, valueOf_zero, neg_zero]
  · rw [if_neg hnx, if_neg hny, if_neg hnx, if_neg hny, hle, Nat.cast_le]

/-- Numbers in the total order are in order; it only tells the two zeros apart. -/
theorem toRat_le_of_compareTotal {x y : Binary64} (h : x.compareTotal y ≠ .gt) :
    x.toRat ≤ y.toRat := by
  rw [toRat_le_iff, amount, amount]
  rw [compareTotal, ne_eq, compare_gt_iff_gt, not_lt, rank, rank] at h
  split_ifs at h ⊢ <;> omega

/-! ## Comparing doubles -/

/-- The sign of a number, as doubles have it. -/
def sign (x : Binary64) : Sign :=
  if x.isNegative then .negative else .positive

theorem sign_ofBitVec (x : Binary64) :
    Sign.ofBitVec (@unpackSign .binary64 x.bits.toBitVec) = x.sign := by
  have hbit : (@unpackSign .binary64 x.bits.toBitVec).toNat = x.bits.toNat / 2 ^ 63 % 2 := by
    change (x.bits.toNat >>> 63) % 2 ^ 1 = _
    rw [Nat.shiftRight_eq_div_pow]
  have hnegative : x.isNegative = true ↔ 2 ^ 63 ≤ x.bits.toNat := decide_eq_true_iff
  have hbits := x.bits.toNat_lt
  rw [Sign.ofBitVec, sign]
  by_cases h : x.isNegative = true
  · have hone : (@unpackSign .binary64 x.bits.toBitVec) ≠ 0#1 := by
      rw [ne_eq, ← BitVec.toNat_inj, hbit]
      change ¬ _ = 0
      have := hnegative.1 h
      omega
    rw [if_pos h, if_neg hone]
  · have hzero : (@unpackSign .binary64 x.bits.toBitVec) = 0#1 := by
      rw [← BitVec.toNat_inj, hbit]
      change _ = 0
      have := mt hnegative.2 h
      omega
    rw [if_neg h, if_pos hzero]

/-- A finite double is unpacked into its sign, its significand and its power. -/
theorem unpack_eq {x : Binary64} (h : x.isFinite) :
    unpack .binary64 x.bits.toBitVec =
      if hm : x.magnitude = 0 then .zero x.sign
      else .finite x.sign (significand x.magnitude) (power x.magnitude) (significand_pos hm) := by
  have hexponent : (@unpackExponent .binary64 x.bits.toBitVec).toNat =
      x.bits.toNat / 2 ^ 52 % 2 ^ 11 := by
    change (x.bits.toNat >>> 52) % 2 ^ 11 = _
    rw [Nat.shiftRight_eq_div_pow]
  have hmantissa : (@unpackMantissa .binary64 x.bits.toBitVec).toNat = x.bits.toNat % 2 ^ 52 := by
    change (x.bits.toNat >>> 0) % 2 ^ 52 = _
    rw [Nat.shiftRight_zero]
  have hmagnitude : x.magnitude = x.bits.toNat % 2 ^ 63 := rfl
  have hfield : (@unpackExponent .binary64 x.bits.toBitVec) = 0#11 ↔ x.magnitude < 2 ^ 52 := by
    rw [← BitVec.toNat_inj, hexponent, hmagnitude]
    change _ = 0 ↔ _
    omega
  have hzero : (@unpackMantissa .binary64 x.bits.toBitVec) = 0#52 ↔ x.bits.toNat % 2 ^ 52 = 0 := by
    rw [← BitVec.toNat_inj, hmantissa]
    rfl
  unfold UnpackedFloat.unpack
  dsimp only
  rw [if_neg ((isFinite_iff_unpackExponent x).1 h), sign_ofBitVec]
  by_cases hsmall : x.magnitude < 2 ^ 52
  · rw [if_pos (hfield.2 hsmall)]
    by_cases hm : x.magnitude = 0
    · rw [dif_pos hm, dif_pos (hzero.2 (by omega))]
    · rw [dif_neg hm, dif_neg (mt hzero.1 (by omega)), finite.injEq, significand_eq, power_eq,
        if_pos hsmall, if_pos hsmall, hmantissa, hexponent]
      refine ⟨rfl, by omega, ?_⟩
      change ((_ : ℕ) : ℤ) - (1023 + 52) + 1 = -1074
      omega
  · have happend : (1#1 ++ (@unpackMantissa .binary64 x.bits.toBitVec)).toNat =
        2 ^ 52 + x.bits.toNat % 2 ^ 52 := by
      rw [BitVec.toNat_append, ← Nat.shiftLeft_add_eq_or_of_lt (BitVec.isLt _), hmantissa]
      rfl
    rw [if_neg (mt hfield.1 hsmall), dif_neg (by omega), finite.injEq, significand_eq, power_eq,
      if_neg hsmall, if_neg hsmall, hexponent]
    refine ⟨rfl, ?_, ?_⟩
    · rw [happend]
      omega
    · change ((_ : ℕ) : ℤ) - (1023 + 52) = _
      omega

theorem compare_power_significand (m n : ℕ) :
    (compare (power m) (power n)).then (compare (significand m) (significand n)) = compare m n := by
  rcases lt_trichotomy m n with h | rfl | h
  · have hlex : power m < power n ∨ power m = power n ∧ significand m < significand n := by
      rw [power_eq, power_eq, significand_eq, significand_eq]
      split_ifs <;> omega
    rw [compare_lt_iff_lt.2 h]
    rcases hlex with hlt | ⟨heq, hlt⟩
    · rw [compare_lt_iff_lt.2 hlt]
      rfl
    · rw [compare_eq_iff_eq.2 heq, compare_lt_iff_lt.2 hlt]
      rfl
  · rw [compare_eq_iff_eq.2 rfl, compare_eq_iff_eq.2 rfl, compare_eq_iff_eq.2 rfl]
    rfl
  · have hlex : power n < power m ∨ power n = power m ∧ significand n < significand m := by
      rw [power_eq, power_eq, significand_eq, significand_eq]
      split_ifs <;> omega
    rw [compare_gt_iff_gt.2 h]
    rcases hlex with hlt | ⟨heq, hlt⟩
    · rw [compare_gt_iff_gt.2 hlt]
      rfl
    · rw [compare_eq_iff_eq.2 heq.symm, compare_gt_iff_gt.2 hlt]
      rfl

theorem compare_natCast (m n : ℕ) : compare (m : ℤ) (n : ℤ) = compare m n := by
  rw [← cmp_eq_compare, ← cmp_eq_compare, Nat.strictMono_cast.cmp_map_eq]

theorem compare_neg (a b : ℤ) : compare (-a) (-b) = (compare a b).swap := by
  have hanti : StrictAnti fun n : ℤ => -n := fun _ _ => neg_lt_neg
  rw [← cmp_eq_compare, ← cmp_eq_compare, hanti.cmp_map_eq, cmp_swap]

/-- Finite doubles are compared by their magnitudes with their signs. -/
theorem compare_unpack {x y : Binary64} (hx : x.isFinite) (hy : y.isFinite) :
    (UnpackedFloat.unpack .binary64 x.bits.toBitVec).compare
      (UnpackedFloat.unpack .binary64 y.bits.toBitVec) = some (compare x.amount y.amount) := by
  have hless {a b : ℤ} (h : a < b) : some Ordering.lt = some (compare a b) :=
    congrArg some (compare_lt_iff_lt.2 h).symm
  have hgreater {a b : ℤ} (h : b < a) : some Ordering.gt = some (compare a b) :=
    congrArg some (compare_gt_iff_gt.2 h).symm
  rw [unpack_eq hx, unpack_eq hy, amount, amount, sign, sign]
  by_cases hmx : x.magnitude = 0
  · rw [dif_pos hmx, hmx]
    by_cases hmy : y.magnitude = 0
    · rw [dif_pos hmy, hmy]
      split_ifs <;> rfl
    · rw [dif_neg hmy]
      split_ifs
      · exact hgreater (by omega)
      · exact hless (by omega)
      · exact hgreater (by omega)
      · exact hless (by omega)
  · rw [dif_neg hmx]
    by_cases hmy : y.magnitude = 0
    · rw [dif_pos hmy, hmy]
      split_ifs
      · exact hless (by omega)
      · exact hless (by omega)
      · exact hgreater (by omega)
      · exact hgreater (by omega)
    · rw [dif_neg hmy]
      split_ifs
      · rw [compare_neg, compare_natCast, ← compare_power_significand]
        rfl
      · exact hless (by omega)
      · exact hgreater (by omega)
      · rw [compare_natCast, ← compare_power_significand]
        rfl

end Binary64

namespace Float64

open Binary64

theorem compare_eq {x y : Float} (hx : x.isFinite) (hy : y.isFinite) :
    x.toModel.unpack.compare y.toModel.unpack =
      some (compare (ofFloat x).amount (ofFloat y).amount) := by
  have hunpack (z : Float) :
      z.toModel.unpack = .unpack .binary64 (ofFloat z).bits.toBitVec := rfl
  rw [← isFinite_ofFloat] at hx hy
  rw [hunpack, hunpack, compare_unpack hx hy]

theorem value_le_iff (x y : Float) :
    value x ≤ value y ↔ (ofFloat x).amount ≤ (ofFloat y).amount := by
  rw [value, value, Rat.cast_le, toRat_le_iff]

/-- Finite doubles are in order if their values are. -/
theorem le_iff {x y : Float} (hx : x.isFinite) (hy : y.isFinite) :
    x ≤ y ↔ value x ≤ value y := by
  have hle : x ≤ y ↔ x.toModel.unpack.le y.toModel.unpack = true := decide_eq_true_iff
  rw [hle, Float.Model.UnpackedFloat.le, compare_eq hx hy, value_le_iff, Option.any_some,
    Std.isLE_compare]

theorem lt_iff {x y : Float} (hx : x.isFinite) (hy : y.isFinite) :
    x < y ↔ value x < value y := by
  have hlt : x < y ↔ x.toModel.unpack.lt y.toModel.unpack = true := decide_eq_true_iff
  rw [hlt, Float.Model.UnpackedFloat.lt, compare_eq hx hy, ← not_le, value_le_iff, not_le]
  exact beq_iff_eq.trans (Option.some_inj.trans compare_lt_iff_lt)

/-- Finite doubles are equal as numbers if their values are. -/
theorem beq_iff {x y : Float} (hx : x.isFinite) (hy : y.isFinite) :
    (x == y) = true ↔ value x = value y := by
  have hbeq : (x == y) = x.toModel.unpack.beq y.toModel.unpack := rfl
  rw [hbeq, Float.Model.UnpackedFloat.beq, compare_eq hx hy, beq_iff_eq, Option.some_inj,
    compare_eq_iff_eq, le_antisymm_iff, ← value_le_iff, ← value_le_iff, ← le_antisymm_iff]

/-- An infinity or a NaN equals no finite double. -/
theorem beq_of_not_isFinite {x y : Float} (hx : ¬ x.isFinite) (hy : y.isFinite) :
    (x == y) = false := by
  have hx : ¬ x.toModel.unpack.isFinite := hx
  have hy : y.toModel.unpack.isFinite := hy
  change x.toModel.unpack.beq y.toModel.unpack = false
  generalize x.toModel.unpack = u at hx ⊢
  generalize y.toModel.unpack = v at hy ⊢
  cases u with
  | finite | zero => exact absurd rfl hx
  | notANumber => rfl
  | infinity s =>
    cases v with
    | notANumber | infinity => cases hy
    | finite | zero => cases s <;> rfl

theorem not_lt_iff {x y : Float} (hx : x.isFinite) (hy : y.isFinite) : ¬ x < y ↔ y ≤ x := by
  rw [lt_iff hx hy, le_iff hy hx, not_lt]

end Float64

end SkyDiscovery
