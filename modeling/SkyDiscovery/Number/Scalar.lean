import SkyDiscovery.Number.Binary64

/-!
# Scalars

The arithmetic in which positions, sizes and times are computed.  The service computes in doubles;
the same definitions read over exact numbers say what the geometry means.
-/

namespace SkyDiscovery

/-- Numbers with the operations of the plane: the four operations, an order, remainders. -/
class Scalar (α : Type) extends
    Add α, Sub α, Mul α, Div α, Neg α, LE α, LT α, OfScientific α, IntCast α where
  [decidableLE : DecidableLE α]
  [decidableLT : DecidableLT α]
  /-- The distance from zero. -/
  abs : α → α
  /-- The larger of two numbers; a NaN gives way to a number, and of equals it is the first. -/
  larger : α → α → α
  /-- The smaller of two numbers, with the same conventions. -/
  smaller : α → α → α
  /-- The remainder on division by a positive number, never negative. -/
  modulo : α → α → α
  isFinite : α → Bool

attribute [reducible, instance] Scalar.decidableLE Scalar.decidableLT

/-- Scalars with the functions of the circle.  Angles in degrees pass through `radians`. -/
class Trigonometry (α : Type) extends Scalar α where
  sine : α → α
  cosine : α → α
  arcsine : α → α
  squareRoot : α → α
  radians : α → α
  degrees : α → α

namespace Float64

def larger (x y : Float) : Float :=
  if x.isNaN then y else if x < y then y else x

def smaller (x y : Float) : Float :=
  if x.isNaN then y else if y < x then y else x

/-- The truncated remainder is exact; a negative one is raised by the divisor. -/
def modulo (x y : Float) : Float :=
  let r := ((Binary64.ofFloat x).remainder (Binary64.ofFloat y)).toFloat
  if r < 0.0 then r + y.abs else r

end Float64

instance : Trigonometry Float where
  intCast := Float.ofInt
  abs := Float.abs
  larger := Float64.larger
  smaller := Float64.smaller
  modulo := Float64.modulo
  isFinite := Float.isFinite
  sine := Float.sin
  cosine := Float.cos
  arcsine := Float.asin
  squareRoot := Float.sqrt
  radians x := x * 0.017453292519943295
  degrees x := x * 57.29577951308232

end SkyDiscovery
