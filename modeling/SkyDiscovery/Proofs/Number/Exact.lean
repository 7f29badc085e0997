import Mathlib.Algebra.Order.Floor.Ring
import Mathlib.Analysis.SpecialFunctions.Trigonometric.Inverse
import SkyDiscovery.Number.Scalar

/-!
# Exact arithmetic

The arithmetic of positions and sizes read exactly: over any ordered field whose elements have a
whole part, and over the real numbers with the functions of the circle.
-/

namespace SkyDiscovery

/-- The remainder of a division is what the whole part of the quotient leaves. -/
instance Scalar.exact {K : Type} [Field K] [LinearOrder K] [FloorRing K] : Scalar K where
  abs x := |x|
  larger := max
  smaller := min
  modulo x y := x - y * ⌊x / y⌋
  isFinite _ := true

noncomputable instance Trigonometry.exact : Trigonometry ℝ where
  sine := Real.sin
  cosine := Real.cos
  arcsine := Real.arcsin
  squareRoot := Real.sqrt
  radians x := x * (Real.pi / 180)
  degrees x := x * (180 / Real.pi)

theorem Trigonometry.radians_eq (x : ℝ) : Trigonometry.radians x = x * (Real.pi / 180) := rfl

theorem Trigonometry.degrees_eq (x : ℝ) : Trigonometry.degrees x = x * (180 / Real.pi) := rfl

/-- The real number that a finite double stands for. -/
noncomputable def Float64.value (x : Float) : ℝ :=
  ((Binary64.ofFloat x).toRat : ℝ)

theorem Float64.value_eq {x : Float} {n : ℕ} (h : (Binary64.ofFloat x).toRat = n) :
    Float64.value x = n := by
  rw [Float64.value, h, Rat.cast_natCast]

end SkyDiscovery
