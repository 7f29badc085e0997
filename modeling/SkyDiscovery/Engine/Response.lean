import SkyDiscovery.Field.Directory
import SkyDiscovery.Record.Record

/-!
# Responses

The records of a run, with the fields that they have, the counts of the run, and whether the record
limit cut it short.
-/

namespace SkyDiscovery

/-- The counts of a run. -/
structure Stats where
  rowsScanned : Nat
  /-- Rows within the radius of the search. -/
  rowsMatched : Nat
  recordsEmitted : Nat
  virtualDiscarded : Nat
  deriving DecidableEq, Repr, Inhabited

structure Response where
  protocol : Protocol
  directory : FieldDirectory
  records : List Record
  /-- The record limit cut the response short. -/
  overflow : Bool
  /-- The text that the catalog was asked with. -/
  query : String
  stats : Stats
  deriving Inhabited

namespace Response

def status (r : Response) : String :=
  if r.overflow then "OVERFLOW" else "OK"

def size (r : Response) : Nat :=
  r.records.length

/-- What a response says of itself, as names and values. -/
def infos (r : Response) : List (String × String) :=
  [("QUERY_STATUS", r.status), ("QUERY", r.query),
    ("TableRows", String.ofList (Text.digits r.size))]

end Response

end SkyDiscovery
