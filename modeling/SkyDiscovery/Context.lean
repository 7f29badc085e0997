import SkyDiscovery.Protocol
import SkyDiscovery.Table.Mapping

/-!
# Service contexts

The settings of a service under which a request is answered.  A setting that is blank counts as
missing.
-/

namespace SkyDiscovery

structure Context where
  /-- The authority of the dataset identifiers. -/
  authority : Option String := none
  /-- The URL of the service, without its name. -/
  baseUrl : Option String := none
  serviceName : Option String := none
  runId : Option String := none
  tableName : Option String := none
  verbosity : Option Nat := none
  /-- The most records that a response can have. -/
  maxRecords : Nat := 1000
  table : TableConfig := {}
  deriving Inhabited

namespace Context

/-- A setting without the blanks at its ends, if there is anything left of it. -/
def require (setting : Option String) (what : String) : Except Failure String :=
  match setting with
  | none => .error (.missing what)
  | some s =>
    let t := Text.trimmed s
    if t.isEmpty then .error (.missing what) else .ok t

def requireTable (c : Context) : Except Failure String :=
  require c.tableName "table name"

def requireAuthority (c : Context) : Except Failure String :=
  require c.authority "authority ID"

def requireBaseUrl (c : Context) : Except Failure String :=
  require c.baseUrl "base URL"

def requireServiceName (c : Context) : Except Failure String :=
  require c.serviceName "service name"

/-- Checks the settings that a protocol needs. -/
def validate (c : Context) (p : Protocol) : Except Failure Unit := do
  let _ ← c.requireTable
  if p.hasAccess then
    let _ ← c.requireAuthority
    let _ ← c.requireBaseUrl
    let _ ← c.requireServiceName

end Context

end SkyDiscovery
