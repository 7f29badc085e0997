import SkyDiscovery.Context
import SkyDiscovery.Text.FormEncoding

/-!
# Dataset identifiers and URLs

The identifier under which the service publishes a dataset, the URLs by which the dataset and its
preview are fetched, and the access URL of a dataset that is computed from another.
-/

namespace SkyDiscovery

open Text

/-- The text with a mark at its end, which is added if it is not there. -/
def endingIn (mark : Char) (s : String) : String :=
  if s.toList.getLast? = some mark then s else s.push mark

namespace Context

/-- The identifier `authority#table:id`. -/
def publisherId (c : Context) (id : Option String) : Except Failure String := do
  let authority ← c.requireAuthority
  let table ← c.requireTable
  match id with
  | none => .error (.invalid "id" "catalog row has no dataset id")
  | some id => return endingIn '#' authority ++ table ++ ":" ++ id

/-- The URL that answers requests for data. -/
def endpoint (c : Context) : Except Failure String := do
  let base ← c.requireBaseUrl
  let name ← c.requireServiceName
  return endingIn '/' base ++ name ++ "/sync"

/-- The argument that names the run, if there is one. -/
def runArgument (runId : Option String) : String :=
  match runId with
  | none => ""
  | some r => "&RunID=" ++ FormEncoding.encode r

/-- The URL of a dataset in a format. -/
def accessUrl (c : Context) (runId : Option String) (id format : String) :
    Except Failure String := do
  return (← c.endpoint) ++ "?REQUEST=accessData&FORMAT=" ++ format ++ "&PubDID=" ++
    FormEncoding.encode id ++ runArgument runId

/-- The URL of the preview of a dataset. -/
def previewUrl (c : Context) (runId : Option String) (id : String) : Except Failure String := do
  return (← c.endpoint) ++ "?REQUEST=accessData&Preview=true&PubDID=" ++
    FormEncoding.encode id ++ runArgument runId

end Context

/-- The access URL for another dataset of the same table: what follows the last `#` of the
identifier is replaced and all other arguments are kept.  There is none if the URL has no
identifier. -/
def replaceDataset? (url replacement : String) : Option String :=
  let key := "PubDID="
  (cutWord key.toList url.toList).map fun (head, rest) =>
    let encoded := before '&' rest
    let id := FormEncoding.decode (String.ofList encoded)
    let replaced := String.ofList (throughLast '#' id.toList) ++ replacement
    String.ofList head ++ key ++ FormEncoding.encode replaced ++
      String.ofList (rest.drop encoded.length)

end SkyDiscovery
