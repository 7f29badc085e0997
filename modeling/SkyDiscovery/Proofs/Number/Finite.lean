import SkyDiscovery.Number.Binary64

/-!
# Finite doubles

Whether a double is finite shows in the field of its exponent.  The test of the arithmetic and the
one that goes by the magnitude of the bits are the same.

* `Binary64.isFinite_ofFloat`: a double is finite if its bits are those of a finite number.
-/

namespace SkyDiscovery.Binary64

open Float.Model.UnpackedFloat

theorem isFinite_iff_unpackExponent (x : Binary64) :
    x.isFinite = true ↔ @unpackExponent .binary64 x.bits.toBitVec ≠ -1#11 := by
  have hbits := x.bits.toNat_lt
  have hfield : (@unpackExponent .binary64 x.bits.toBitVec).toNat =
      x.bits.toNat / 2 ^ 52 % 2 ^ 11 := by
    change (x.bits.toNat >>> 52) % 2 ^ 11 = _
    rw [Nat.shiftRight_eq_div_pow]
  have hfinite : x.isFinite = true ↔ x.bits.toNat % 2 ^ 63 < 2047 * 2 ^ 52 := decide_eq_true_iff
  rw [hfinite, ne_eq, ← BitVec.toNat_inj, hfield]
  change _ ↔ ¬ _ = 2047
  omega

theorem isFinite_unpack_iff (b : BitVec Float.Model.Format.binary64.numBits) :
    (unpack .binary64 b).isFinite = true ↔ unpackExponent b ≠ -1#11 := by
  unfold unpack
  dsimp only
  by_cases hexponent : unpackExponent b = -1#11
  · refine iff_of_false ?_ (not_not_intro hexponent)
    rw [if_pos hexponent]
    by_cases hmantissa : unpackMantissa b = 0#52
    · rw [if_pos hmantissa]
      exact Bool.false_ne_true
    · rw [if_neg hmantissa]
      exact Bool.false_ne_true
  · refine iff_of_true ?_ hexponent
    rw [if_neg hexponent]
    by_cases hzero : unpackExponent b = 0#11
    · rw [if_pos hzero]
      by_cases hmantissa : unpackMantissa b = 0#52
      · rw [dif_pos hmantissa]
        rfl
      · rw [dif_neg hmantissa]
        rfl
    · rw [if_neg hzero]
      rfl

/-- The test of the arithmetic and the test by the bits are the same. -/
theorem isFinite_ofFloat (x : Float) : (ofFloat x).isFinite = x.isFinite := by
  rw [Bool.eq_iff_iff, isFinite_iff_unpackExponent]
  exact (isFinite_unpack_iff _).symm

end SkyDiscovery.Binary64
