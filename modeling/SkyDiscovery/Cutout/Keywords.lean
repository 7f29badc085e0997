import SkyDiscovery.Dictionary
import SkyDiscovery.Text.Split

/-!
# Keywords

A cutout is described by keywords, written one to a line as `KEY = value`.  Blank lines, comments
after `#` and headings in brackets are passed over, and of several lines with one keyword the last
counts.
-/

namespace SkyDiscovery

abbrev Keywords := Dictionary String

namespace Keywords

open Text

/-- The keyword that names the metadata file of a cutout. -/
def metadataFile : String := "MDFILE"

/-- The keyword and value of a line, if it has any. -/
def ofLine? (line : List Char) : Option (String × String) :=
  match trim line with
  | [] => none
  | c :: cs =>
    if c = '#' ∨ c = '[' then none
    else
      match cut '=' (c :: cs) with
      | none => none
      | some (key, value) =>
        if (trim key).isEmpty then none
        else some (String.ofList (trim key), String.ofList (trim value))

/-- The keywords of a text. -/
def read (cs : List Char) : Keywords :=
  .ofList ((splitOn (· == '\n') cs).filterMap ofLine?)

end Keywords

end SkyDiscovery
