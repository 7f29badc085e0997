import SkyDiscovery.Sky.Longitude

/-!
# Positions and separations

A position is a point of the unit sphere, given by longitude and latitude in degrees.  The
separation of two positions is their great-circle angle, taken from the chord between them.
-/

namespace SkyDiscovery

structure Position (α : Type) where
  lon : α
  lat : α
  deriving Repr

namespace Position

variable {α : Type} [Trigonometry α]

/-- The point of the unit sphere. -/
def unitVector (p : Position α) : α × α × α :=
  let lon := Trigonometry.radians p.lon
  let lat := Trigonometry.radians p.lat
  (Trigonometry.cosine lat * Trigonometry.cosine lon,
    Trigonometry.cosine lat * Trigonometry.sine lon, Trigonometry.sine lat)

/-- The length of the straight line between two positions. -/
def chord (p q : Position α) : α :=
  let (x, y, z) := p.unitVector
  let (u, v, w) := q.unitVector
  Trigonometry.squareRoot ((x - u) * (x - u) + (y - v) * (y - v) + (z - w) * (z - w))

/-- The great-circle angle between two positions, in degrees. -/
def separation (p q : Position α) : α :=
  2.0 * Trigonometry.degrees (Trigonometry.arcsine (Scalar.smaller (chord p q / 2.0) 1.0))

end Position

end SkyDiscovery
