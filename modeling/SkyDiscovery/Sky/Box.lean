import SkyDiscovery.Sky.Position

/-!
# Boxes on the sky

A box is bounded by two latitudes and, unless it goes all the way round, by two longitudes.  Its
longitude bounds may lie outside [0, 360); `lonRanges` splits such a box at the seam.  `around`
gives a box that holds all points near a center, widening in longitude towards the poles.
-/

namespace SkyDiscovery

structure SkyBox (α : Type) where
  /-- The longitude bounds; none when the box goes all the way round. -/
  lon : Option (α × α)
  latMin : α
  latMax : α
  deriving Repr

namespace SkyBox

section
variable {α : Type} [Scalar α]

/-- The box of all longitudes between two latitudes. -/
def band (latMin latMax : α) : SkyBox α :=
  ⟨none, latMin, latMax⟩

def constrainsLon (b : SkyBox α) : Bool :=
  b.lon.isSome

/-- The longitude intervals of the box within [0, 360]. -/
def lonRanges (b : SkyBox α) : List (α × α) :=
  match b.lon with
  | none => [(0.0, 360.0)]
  | some (low, high) =>
    if low < 0.0 then [(360.0 + low, 360.0), (0.0, high)]
    else if 360.0 < high then [(low, 360.0), (0.0, high - 360.0)]
    else [(low, high)]

/-- Whether a position lies in the box, its edges included. -/
def contains (b : SkyBox α) (p : Position α) : Bool :=
  if p.lat < b.latMin ∨ b.latMax < p.lat then false
  else
    let lon := Longitude.normalize p.lon
    b.lonRanges.any fun (low, high) => low ≤ lon && lon ≤ high

end

/-- A box that holds every point within the half-widths of a center.  The longitude half-width is
divided by the cosine of the latitude at the edge nearest a pole; a box that touches a pole, or
whose half-width comes to 180 degrees, goes all the way round. -/
def around {α : Type} [Trigonometry α] (center : Position α) (halfLon halfLat : α) : SkyBox α :=
  let latMin := Scalar.larger (center.lat - halfLat) (-90.0)
  let latMax := Scalar.smaller (center.lat + halfLat) 90.0
  let edge := Scalar.larger (Scalar.abs latMin) (Scalar.abs latMax)
  if 90.0 ≤ edge then band latMin latMax
  else
    let stretched := halfLon / Trigonometry.cosine (Trigonometry.radians edge)
    if !Scalar.isFinite stretched || 180.0 ≤ stretched then band latMin latMax
    else ⟨some (center.lon - stretched, center.lon + stretched), latMin, latMax⟩

end SkyBox

end SkyDiscovery
