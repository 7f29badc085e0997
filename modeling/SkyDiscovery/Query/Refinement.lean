import SkyDiscovery.Query.Region
import SkyDiscovery.Record.Row
import SkyDiscovery.Table.Mapping

/-!
# Refinement

The catalog answers for a coarse box; refinement keeps the rows within the radius of the search.
What it needs of a row is a `Sighting`: the position of the dataset and what tells its extent.  The
radius is widened by the half extent of a dataset with a footprint.
-/

namespace SkyDiscovery

/-- The position of a dataset, its scale in seconds of arc a pixel and its lengths in pixels. -/
structure Sighting (α : Type) where
  lon : Option α
  lat : Option α
  scale : Option α
  length1 : Option α
  length2 : Option α

namespace Sighting

/-- The position and extent that a row gives; cone searches have columns of their own. -/
def ofRow (t : TableMapping) (footprint : Bool) (row : Row) : Sighting Float :=
  let (lon, lat) := if footprint then ("s_ra", "s_dec") else ("ra", "dec")
  ⟨row.float? (t.column lon), row.float? (t.column lat), row.float? (t.column "im_scale"),
    row.float? (t.column "im_naxis1"), row.float? (t.column "im_naxis2")⟩

end Sighting

namespace Region

/-- Half the longer side of a dataset, in degrees; without a scale there is no extent. -/
def halfExtent {α : Type} [Scalar α] (r : Region α) (s : Sighting α) : α :=
  if r.footprint then
    match s.scale with
    | none => 0.0
    | some scale =>
      Scalar.abs scale / 3600.0 * Scalar.larger (s.length1.getD 0.0) (s.length2.getD 0.0) / 2.0
  else 0.0

section
variable {α : Type} [Trigonometry α]

/-- The angle between the center and a dataset with a position.  Longitudes are turned so that the
center lies at 180. -/
def separation? (r : Region α) (s : Sighting α) : Option α := do
  let lon ← s.lon
  let lat ← s.lat
  let turn := Longitude.recenter r.center.lon
  return Position.separation ⟨turn r.center.lon, r.center.lat⟩ ⟨turn lon, lat⟩

/-- Whether a dataset lies within the radius; one without a position does not. -/
def accepts (r : Region α) (s : Sighting α) : Bool :=
  match r.separation? s with
  | some distance => distance ≤ r.radius + r.halfExtent s
  | none => false

end

/-- Whether a row lies within the radius. -/
def acceptsRow (r : Region Float) (t : TableMapping) (row : Row) : Bool :=
  r.accepts (Sighting.ofRow t r.footprint row)

end Region

end SkyDiscovery
