import SkyDiscovery.Failure
import SkyDiscovery.Json.Reader
import SkyDiscovery.Record.Row

/-!
# Catalog replies

Rows come from the catalog as the text of JSON objects, and the places of files as paths or as
`file` URLs.
-/

namespace SkyDiscovery

/-- Reads a row from the text of a JSON object. -/
def Row.read (s : String) : Except Failure Row :=
  match Json.read s with
  | some (.object ms) => .ok (.ofList ms)
  | _ => .error (.catalog "unreadable catalog row")

/-- The path of a file.  The host of a `file` URL is left out, and anything that is no such URL is
taken as a path. -/
def filePath (location : String) : String :=
  let cs := Text.trim location.toList
  String.ofList <|
    match "file://".toList.isPrefixOf? cs with
    | none => cs
    | some rest =>
      match rest.dropWhile (· != '/') with
      | [] => rest
      | path => path

end SkyDiscovery
