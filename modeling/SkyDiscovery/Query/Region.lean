import SkyDiscovery.Sky.Box
import SkyDiscovery.Sky.Frame

/-!
# Search regions

The region of a positional search is a center with a half-width in each direction.  The catalog is
asked for a coarse box of twice the half-widths; the search itself goes by the radius.
-/

namespace SkyDiscovery

structure Region (α : Type) where
  center : Position α
  halfLon : α
  halfLat : α
  frame : Frame
  /-- Whether the extent of a dataset widens the radius for it. -/
  footprint : Bool

/-- What can be wrong with a center or a size. -/
inductive RegionFault (α : Type) where
  | latitude (lat : α)
  | negativeSize

namespace Region

section
variable {α : Type} [Scalar α]

def radius (r : Region α) : α :=
  Scalar.larger r.halfLon r.halfLat

def checkCenter (p : Position α) : Except (RegionFault α) Unit :=
  if -90.0 ≤ p.lat ∧ p.lat ≤ 90.0 then .ok () else .error (.latitude p.lat)

/-- The region of a size; a width of 180 degrees takes in the whole sky and gives none. -/
def ofSize (center : Position α) (halfLon halfLat : α) (frame : Frame) (footprint : Bool) :
    Except (RegionFault α) (Option (Region α)) :=
  if halfLon < 0.0 ∨ halfLat < 0.0 then .error .negativeSize
  else if Scalar.abs (halfLon - 180.0) < 1e-6 then .ok none
  else
    .ok (some ⟨⟨Longitude.normalize center.lon, center.lat⟩, halfLon, halfLat, frame, footprint⟩)

end

/-- The box that the catalog is asked for. -/
def coarseBox {α : Type} [Trigonometry α] (r : Region α) : SkyBox α :=
  .around r.center (2.0 * r.halfLon) (2.0 * r.halfLat)

end Region

end SkyDiscovery
