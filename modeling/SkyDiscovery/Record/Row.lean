import SkyDiscovery.Json.Writer
import SkyDiscovery.Text.Blank
import SkyDiscovery.Text.Case

/-!
# Catalog rows

A row is what the catalog returns for one dataset: values under column names.  A catalog may change
the case of the names, so a column that is not there is looked up without regard to case.
-/

namespace SkyDiscovery

/-- The text form of a value: a text is taken as it is, any other value as JSON text. -/
def Json.asText? : Json → Option String
  | .null => none
  | .text s => some s
  | x => some x.compact

/-- The number of a value; a text is read as one. -/
def Json.asFloat? : Json → Option Float
  | .number n => some n.toFloat
  | .text s => (Binary64.read (Text.trim s.toList)).map Binary64.toFloat
  | _ => none

structure Row where
  values : Dictionary Json
  deriving Inhabited

namespace Row

def empty : Row := ⟨∅⟩

def insert (r : Row) (column : String) (x : Json) : Row :=
  ⟨r.values.insert column x⟩

def ofList (es : List (String × Json)) : Row :=
  ⟨.ofList es⟩

/-- The value of a column. -/
def get? (r : Row) (column : String) : Option Json :=
  (r.values.get? column).or (r.values.find? fun k => Text.sameIgnoringCase k column)

/-- The text of a column; a missing value has none. -/
def text? (r : Row) (column : String) : Option String :=
  (r.get? column).bind Json.asText?

/-- The number in a column. -/
def float? (r : Row) (column : String) : Option Float :=
  (r.get? column).bind Json.asFloat?

def columns (r : Row) : List String :=
  r.values.keys

def size (r : Row) : Nat :=
  r.values.size

end Row

end SkyDiscovery
