import SkyDiscovery.Field.Directory
import SkyDiscovery.Record.DatasetUrl
import SkyDiscovery.Record.Row
import SkyDiscovery.Record.Variant

/-!
# Synthesis of records

Most fields of a record are copied from the column of the same name.  The identifier, the URLs, the
creation type and the description of the image axes are computed instead.
-/

namespace SkyDiscovery

/-! ## Image axes -/

/-- One axis of an image: its length and its type in the coordinate system. -/
structure ImageAxis where
  length : String
  type : Option String
  deriving DecidableEq, Repr

namespace ImageAxis

/-- An axis of one pixel or none does not count. -/
def isDegenerate (length : List Char) : Bool :=
  match Binary64.read length with
  | some x => x.toFloat == 0.0 || x.toFloat == 1.0
  | none => false

/-- The axes with the given numbers, up to the first without a length. -/
def ofNumbers (t : TableMapping) (row : Row) : List String → List ImageAxis
  | [] => []
  | n :: ns =>
    match row.text? (t.column ("im_naxis" ++ n)) with
    | none => []
    | some s =>
      let length := Text.trim s.toList
      if isDegenerate length then ofNumbers t row ns
      else
        ⟨String.ofList length, (row.text? (t.column ("im_wcsaxes" ++ n))).map Text.trimmed⟩ ::
          ofNumbers t row ns

/-- The axes of an image, of which a table has columns for four. -/
def ofRow (t : TableMapping) (row : Row) : List ImageAxis :=
  ofNumbers t row ["1", "2", "3", "4"]

/-- The lengths of the axes between blanks. -/
def lengths (axes : List ImageAxis) : String :=
  " ".intercalate (axes.map ImageAxis.length)

/-- The types of the axes that have one, between blanks. -/
def types (axes : List ImageAxis) : String :=
  " ".intercalate (axes.filterMap ImageAxis.type)

end ImageAxis

/-! ## Records -/

/-- What the records of one request are made under. -/
structure Synthesizer where
  protocol : Protocol
  context : Context
  table : TableMapping
  directory : FieldDirectory
  /-- The run named in the URLs. -/
  runId : Option String

/-- A record with the identifier it was made with. -/
structure Synthesized where
  record : Record
  publisherId : Option String

namespace Synthesizer

/-- The run that a request names counts before that of the service. -/
def make (p : Protocol) (c : Context) (t : TableMapping) (d : FieldDirectory)
    (runId : Option String) : Synthesizer :=
  ⟨p, c, t, d, runId.or c.runId⟩

/-- The identifier of the dataset of a row. -/
def publisherId (z : Synthesizer) (row : Row) : Except Failure String :=
  z.context.publisherId (row.text? (z.table.column "id"))

/-- The value of the column of a field. -/
def copied (z : Synthesizer) (row : Row) (id : String) : Json :=
  (row.get? (z.table.column id)).getD .null

/-- The description of the image axes in a field, if it is one of theirs. -/
def axisValue? (axes : List ImageAxis) (id : String) : Option Json :=
  if id = "im_naxes" then some (.ofNat axes.length)
  else if id = "im_naxis" then some (.text (ImageAxis.lengths axes))
  else if id = "im_wcsaxes" then some (.text (ImageAxis.types axes))
  else none

/-- The value of a field that is neither of the dataset's identity nor of its access. -/
def plainValue (z : Synthesizer) (row : Row) (id : String) : Json :=
  let described :=
    if z.protocol = .image then axisValue? (ImageAxis.ofRow z.table row) id else none
  described.getD (z.copied row id)

/-- The value of a field of a record with an identifier. -/
def value (z : Synthesizer) (row : Row) (v : Variant) (publisherId id : String) :
    Except Failure Json :=
  if id = "obs_publisher_did" then .ok (.text publisherId)
  else if id = "access_url" then
    (z.context.accessUrl z.runId publisherId v.mime).map .text
  else if id = "access_format" then .ok (.text v.mime)
  else if id = "preview" then (z.context.previewUrl z.runId publisherId).map .text
  else if id = "obs_creation_type" then .ok (.text v.product.creationType)
  else if id = "assoc_id" then .ok .null
  else .ok (z.plainValue row id)

/-- The record whose fields have the given values. -/
def fill (z : Synthesizer) (v : Variant) (value : String → Except Failure Json) :
    Except Failure Record := do
  let entries ← z.directory.ids.mapM fun id => do return (id, ← value id)
  return ⟨.ofList entries, none, v.mime, v.product⟩

/-- The record of one variant of a row. -/
def synthesize (z : Synthesizer) (row : Row) (v : Variant) : Except Failure Synthesized :=
  if z.protocol.hasAccess then do
    let id ← z.publisherId row
    return ⟨← z.fill v (z.value row v id), some id⟩
  else do
    return ⟨← z.fill v fun id => .ok (z.copied row id), none⟩

end Synthesizer

end SkyDiscovery
