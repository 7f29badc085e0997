import SkyDiscovery.Dictionary

/-!
# Tables

How the canonical names of the data model are mapped to the columns of one catalog table, and which
fields the table shows.  `TableMapping` is what the rest of the service asks of a table;
`TableConfig` is the form in which the settings of a service give one.
-/

namespace SkyDiscovery

/-- A field that a table publishes beside the standard ones. -/
structure CustomField where
  id : String
  datatype : String := "char"
  arraysize : Option String := none
  unit : Option String := none
  ucd : Option String := none
  utype : Option String := none
  /-- The column of the values, if it is not named like the field. -/
  column : Option String := none
  deriving DecidableEq, Repr, Inhabited

/-- The hint letters of the fields shown at a level: the main fields, then the query fields as
well, then all fields. -/
def defaultMask : Option Nat → Option String
  | some 0 => some "m"
  | some 1 => some "mq"
  | _ => none

structure TableMapping where
  /-- The column of a canonical name, if the table renames it. -/
  resolve : String → Option String
  /-- The hint letters of the fields shown at a level; none shows every field. -/
  mask : Option Nat → Option String := defaultMask
  /-- Whether a standard field is left out. -/
  omits : String → Bool := fun _ => false
  customFields : List CustomField := []

namespace TableMapping

/-- The column of a canonical name; by default the name itself. -/
def column (t : TableMapping) (canonical : String) : String :=
  (t.resolve canonical).getD canonical

/-- A table that only renames columns. -/
def ofColumns (columns : Dictionary String) : TableMapping where
  resolve := columns.get?

end TableMapping

structure TableConfig where
  /-- Columns under canonical names. -/
  columns : Dictionary String := ∅
  /-- The standard fields to leave out. -/
  omitted : List String := []
  customFields : List CustomField := []
  /-- Hint letters under verbosity levels, in the stead of the default ones. -/
  masks : List (Nat × String) := []
  deriving Inhabited

namespace TableConfig

def empty : TableConfig := {}

/-- Maps a canonical name to a column. -/
def withColumn (t : TableConfig) (canonical column : String) : TableConfig :=
  { t with columns := t.columns.insert canonical column }

def withCustomField (t : TableConfig) (f : CustomField) : TableConfig :=
  { t with customFields := t.customFields ++ [f] }

/-- The column mapped to a name, or else that of the custom field of that name. -/
def resolve (t : TableConfig) (canonical : String) : Option String :=
  match t.columns.get? canonical with
  | some c => some c
  | none => (t.customFields.find? fun f => f.id == canonical).bind CustomField.column

def mask (t : TableConfig) (level : Option Nat) : Option String :=
  match level.bind fun v => t.masks.lookup v with
  | some m => some m
  | none => defaultMask level

def mapping (t : TableConfig) : TableMapping where
  resolve := t.resolve
  mask := t.mask
  omits := t.omitted.contains
  customFields := t.customFields

end TableConfig

end SkyDiscovery
