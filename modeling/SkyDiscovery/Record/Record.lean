import SkyDiscovery.Json.Basic

/-!
# Records

A record describes one dataset to the client: values under field identifiers, with the format of
the dataset and whether it is stored or computed on demand.
-/

namespace SkyDiscovery

inductive Product where
  | archival
  /-- Computed on demand. -/
  | virtual
  deriving DecidableEq, Repr, Inhabited

namespace Product

def name : Product → String
  | archival => "archival"
  | virtual => "virtual"

/-- The value of the field `obs_creation_type`. -/
def creationType : Product → String
  | archival => "archival"
  | virtual => "cutout"

end Product

structure Record where
  values : Dictionary Json
  /-- Shared by the records of one row. -/
  association : Option String
  /-- The media type of the dataset. -/
  format : String
  product : Product
  deriving Inhabited

namespace Record

def empty (format : String) (product : Product) : Record :=
  ⟨∅, none, format, product⟩

def set (r : Record) (field : String) (x : Json) : Record :=
  { r with values := r.values.insert field x }

def get? (r : Record) (field : String) : Option Json :=
  r.values.get? field

/-- The text in a field. -/
def text? (r : Record) (field : String) : Option String :=
  match r.get? field with
  | some (.text s) => some s
  | _ => none

end Record

end SkyDiscovery
