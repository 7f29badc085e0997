import SkyDiscovery.Number.Scalar

/-!
# Longitudes

Longitudes are angles in degrees modulo 360.  `normalize` picks the representative in [0, 360);
`recenter` turns the circle so that a chosen center lies at 180, where differences of nearby
longitudes never cross the seam.
-/

namespace SkyDiscovery.Longitude

variable {α : Type} [Scalar α]

/-- The longitude wrapped into [0, 360).  A remainder that rounds up to 360 becomes 0. -/
def normalize (lon : α) : α :=
  let wrapped := Scalar.modulo lon 360.0
  if 360.0 ≤ wrapped then 0.0 else wrapped

/-- The longitude after a turn that takes `center` to 180. -/
def recenter (center lon : α) : α :=
  normalize (lon - (center - 180.0))

end SkyDiscovery.Longitude
