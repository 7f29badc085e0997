import SkyDiscovery.Json.Basic
import SkyDiscovery.Table.Mapping
import SkyDiscovery.Text.Blank
import SkyDiscovery.Text.Case

/-!
# Fields

The fields of a response, which of them a hint mask shows, and the values of a field that are given
as texts.
-/

namespace SkyDiscovery

structure Field where
  id : String
  /-- The name in the data model; empty when there is none. -/
  utype : String
  datatype : String
  arraysize : Option String
  unit : Option String
  ucd : Option String
  /-- The letters by which a mask shows the field. -/
  hint : String
  deriving DecidableEq, Repr, Inhabited

namespace Field

/-- Whether a mask shows the field: it shares a letter with the hint.  Without a mask all fields
are shown. -/
def isShown (f : Field) : Option String → Bool
  | none => true
  | some mask => f.hint.toList.any fun c => mask.toList.contains c

/-- The letter of the fields that are shown at every level. -/
def mainHint : String := "m"

/-- The field that a table publishes. -/
def ofCustom (c : CustomField) : Field where
  id := c.id
  utype := c.utype.getD ""
  datatype := c.datatype
  arraysize := c.arraysize
  unit := c.unit
  ucd := c.ucd
  hint := mainHint

def wholeValue (s : String) : Json :=
  match Text.readInt64 s.toList with
  | some n => .ofInt n
  | none => .text s

def realValue (s : String) : Json :=
  match Binary64.read s.toList with
  | some x => .ofFloat x.toFloat
  | none => .text s

def truthValue (s : String) : Json :=
  if Text.lower s ∈ ["true", "t", "1"] then .bool true
  else if Text.lower s ∈ ["false", "f", "0"] then .bool false
  else .text s

/-- The value that a text gives the field; a text that is no value of the datatype is kept. -/
def coerce (f : Field) (s : String) : Json :=
  let s := Text.trimmed s
  if f.datatype ∈ ["short", "int", "long"] then wholeValue s
  else if f.datatype ∈ ["float", "double"] then realValue s
  else if f.datatype = "boolean" then truthValue s
  else .text s

end Field

end SkyDiscovery
