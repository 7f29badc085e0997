import SkyDiscovery.Engine.Response
import SkyDiscovery.Json.Writer

/-!
# Documents

What a client reads: a JSON document of the response, or one of the failure.
-/

namespace SkyDiscovery

/-- The members of an object that have a value. -/
def present (ms : List (String × Option String)) : List (String × Json) :=
  ms.filterMap fun (key, value) => value.map fun s => (key, .text s)

/-- A field without the letters that show it. -/
def Field.document (f : Field) : Json :=
  .object ([("id", .text f.id), ("utype", .text f.utype), ("datatype", .text f.datatype)] ++
    present [("arraysize", f.arraysize), ("unit", f.unit), ("ucd", f.ucd)])

def FieldDirectory.document (d : FieldDirectory) : Json :=
  .object [("fields", .array (d.fields.map Field.document))]

def Record.document (r : Record) : Json :=
  .object ([("values", .ofDictionary id r.values)] ++ present [("assoc_id", r.association)] ++
    [("format", .text r.format), ("product", .text r.product.name)])

def Stats.document (s : Stats) : Json :=
  .object [("rows_scanned", .ofNat s.rowsScanned), ("rows_matched", .ofNat s.rowsMatched),
    ("records_emitted", .ofNat s.recordsEmitted),
    ("virtual_discarded", .ofNat s.virtualDiscarded)]

def Response.document (r : Response) : Json :=
  .object [("status", .text r.status), ("protocol", .text r.protocol.name),
    ("infos", .array (r.infos.map fun (name, value) =>
      .object [("name", .text name), ("value", .text value)])),
    ("fields", r.directory.document), ("records", .array (r.records.map Record.document)),
    ("stats", r.stats.document)]

def Failure.document (f : Failure) : Json :=
  .object [("status", .text f.queryStatus), ("http_status", .ofNat f.httpStatus),
    ("message", .text f.message)]

/-- The document of an outcome. -/
def outcomeDocument : Except Failure Response → Json
  | .ok r => r.document
  | .error f => f.document

end SkyDiscovery
