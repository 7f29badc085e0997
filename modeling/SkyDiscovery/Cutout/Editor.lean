import SkyDiscovery.Engine.Event
import SkyDiscovery.Field.Directory
import SkyDiscovery.Record.DatasetUrl
import SkyDiscovery.Record.Record

/-!
# Virtual records

A virtual record begins as a copy of the archival one.  Its file is located, the cutout is
computed, and the record is changed to describe the cutout.  When there is no cutout, for
whatever reason, the record is discarded; only a fault of the locator fails the request.
-/

namespace SkyDiscovery

inductive EditOutcome where
  | applied
  | discarded (reason : String)
  deriving DecidableEq, Repr

structure Editor where
  service : CutoutService
  request : CutoutRequest

namespace Editor

/-- Sets the field that a keyword names to its value. -/
def applyKeyword (d : FieldDirectory) (r : Record) (keyword : String × String) : Record :=
  match d.named? keyword.1 with
  | some f => r.set f.id (f.coerce keyword.2)
  | none => r

/-- The record of a cutout, whose access URL is already set: its creation type is set, and then the
keywords have their say, in the order of their names. -/
def describe (d : FieldDirectory) (keywords : Keywords) (r : Record) : Record :=
  let r := { r with product := .virtual }
  let r :=
    if d.contains "obs_creation_type" then
      r.set "obs_creation_type" (.text Product.virtual.creationType)
    else r
  keywords.entries.foldl (applyKeyword d) r

/-- Turns the access URL of a record, if it has one, to a metadata file. -/
def redirect? (r : Record) (file : String) : Option Record :=
  match r.text? "access_url" with
  | none => some r
  | some url => (replaceDataset? url file).map fun u => r.set "access_url" (.text u)

/-- What becomes of a record when the task has ended. -/
def conclude (d : FieldDirectory) (r : Record) (publisherId : String) :
    Except Failure (Option Keywords) → Record × EditOutcome
  | .error f => (r, .discarded f.message)
  | .ok none => (r, .discarded ("no cutout of " ++ publisherId ++ " for this region"))
  | .ok (some keywords) =>
    match keywords.get? Keywords.metadataFile with
    | none =>
      (r, .discarded ("cutout task returned no " ++ Keywords.metadataFile ++ " for " ++
        publisherId))
    | some file =>
      match redirect? r file with
      | none => (r, .discarded ("access URL of " ++ publisherId ++ " has no PubDID"))
      | some r => (describe d keywords r, .applied)

/-- Makes a virtual record describe its cutout. -/
def edit (e : Editor) (d : FieldDirectory) (r : Record) (publisherId : String) :
    Logged (Record × Except Failure EditOutcome) := do
  Logged.log (.located publisherId)
  match e.service.locate publisherId with
  | .error f => return (r, .error f)
  | .ok none => return (r, .ok (.discarded ("no archival file for " ++ publisherId)))
  | .ok (some path) =>
    let request := e.request.forDataset publisherId
    Logged.log (.computed path request)
    let (edited, outcome) := conclude d r publisherId (e.service.compute path request)
    return (edited, .ok outcome)

end Editor

end SkyDiscovery
