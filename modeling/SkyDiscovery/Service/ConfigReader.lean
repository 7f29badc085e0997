import SkyDiscovery.Service.Config
import SkyDiscovery.Service.ConfigNode

/-!
# Reading settings

A group of settings is read member by member; members with other names are passed over.  Where a
text is expected, a word counts as the text of its characters.
-/

namespace SkyDiscovery

namespace Setting

/-! ## Members -/

/-- The members of a group of settings. -/
def members? : ConfigNode → Option (List (String × ConfigNode))
  | .group ms => some ms
  | _ => none

/-- Reads the setting of a name, or takes `missing` where it is not given.  It is given once. -/
def get? {α : Type} (ms : List (String × ConfigNode)) (name : String)
    (read : ConfigNode → Option α) (missing : Option α) : Option α :=
  match ms.filter fun m => m.1 == name with
  | [] => missing
  | [(_, x)] => read x
  | _ => none

/-! ## Values -/

def text? : ConfigNode → Option String
  | .word s | .quoted s => some s
  | _ => none

/-- A value or the word for none. -/
def optional? {α : Type} (read : ConfigNode → Option α) : ConfigNode → Option (Option α)
  | .word "null" => some none
  | x => (read x).map some

/-- A whole number of so many bits. -/
def natural? (bits : Nat) : ConfigNode → Option Nat
  | .word s =>
    let ds := s.toList
    if ds.all Char.isDigit && (ds.head? != some '0' || ds.length == 1) then
      (some (Text.valueOfDigits 0 ds)).filter (· < Nat.pow 2 bits)
    else none
  | _ => none

def list? {α : Type} (read : ConfigNode → Option α) : ConfigNode → Option (List α)
  | .list xs => xs.mapM read
  | _ => none

/-- Texts under names. -/
def texts? : ConfigNode → Option (Dictionary String)
  | .group ms => (ms.mapM fun e => (text? e.2).map fun s => (e.1, s)).map .ofList
  | _ => none

/-- Masks under levels.  A key is quoted and so never a level; hence there are none. -/
def masks? : ConfigNode → Option (List (Nat × String))
  | .group [] => some []
  | _ => none

/-! ## Groups -/

def customField? (x : ConfigNode) : Option CustomField := do
  let ms ← members? x
  let optionalText (name : String) := get? ms name (optional? text?) (some none)
  return {
    id := ← get? ms "id" text? none
    datatype := ← get? ms "datatype" text? (some "char")
    arraysize := ← optionalText "arraysize"
    unit := ← optionalText "unit"
    ucd := ← optionalText "ucd"
    utype := ← optionalText "utype"
    column := ← optionalText "column"
  }

def table? (x : ConfigNode) : Option TableConfig := do
  let ms ← members? x
  return {
    columns := ← get? ms "columns" texts? (some ∅)
    omitted := ← get? ms "omit" (list? text?) (some [])
    customFields := ← get? ms "custom_fields" (list? customField?) (some [])
    masks := ← get? ms "verbosity" masks? (some [])
  }

def database? (x : ConfigNode) : Option DatabaseConfig := do
  let ms ← members? x
  return {
    url := ← get? ms "url" (optional? text?) (some none)
    maxConnections := ← get? ms "max_connections" (natural? 32) (some 5)
  }

def cutout? (x : ConfigNode) : Option CutoutConfig := do
  let ms ← members? x
  return {
    program := ← get? ms "program" text? none
    stagingDir := ← get? ms "staging_dir" (optional? text?) (some none)
    locationColumn := ← get? ms "location_column" text? none
    idColumn := ← get? ms "id_column" text? (some "id")
  }

end Setting

namespace ServiceConfig

open Setting

def ofNode? (x : ConfigNode) : Option ServiceConfig := do
  let ms ← members? x
  let optionalText (name : String) := get? ms name (optional? text?) (some none)
  return {
    protocol := ← get? ms "protocol" text? (some "image")
    authority := ← optionalText "authority_id"
    baseUrl := ← optionalText "base_url"
    serviceName := ← optionalText "service_name"
    tableName := ← get? ms "table_name" text? none
    runId := ← optionalText "run_id"
    verbosity := ← get? ms "verbosity" (optional? (natural? 32)) (some none)
    maxRecords := ← get? ms "max_records" (natural? 64) (some 1000)
    database := ← get? ms "database" database? (some {})
    cutout := ← get? ms "cutout" (optional? cutout?) (some none)
    table := ← get? ms "table" table? (some {})
  }

/-- Reads the settings of a text. -/
def read? (s : String) : Option ServiceConfig :=
  (ConfigNode.read? s).bind ofNode?

end ServiceConfig

end SkyDiscovery
