import SkyDiscovery.Engine.Run
import SkyDiscovery.Service.Config
import SkyDiscovery.Text.Split

/-!
# Requests to a service

A request to a service is answered under its settings.  The request is read and its query compiled
before the database is connected to, so a malformed request never reaches the database.
-/

namespace SkyDiscovery

/-- Reads a parameter `KEY=VALUE`; the value is everything after the first equals sign. -/
def readArgument (s : String) : Except String (String × String) :=
  let malformed := Except.error ("expected KEY=VALUE, got '" ++ s ++ "'")
  match Text.cut '=' s.toList with
  | none => malformed
  | some (key, value) =>
    if (Text.trim key).isEmpty then malformed
    else .ok (String.ofList (Text.trim key), String.ofList value)

/-- What a service has once it is connected to its database. -/
structure Connection where
  catalog : Catalog
  cutouts : CutoutConfig → CutoutService

/-- Connects to the database at a URL with so many connections at most. -/
abbrev Connector := String → Nat → Except Failure Connection

/-- The connector of a command without a database driver.  A text without a colon is no URL. -/
def refuseConnection (url : String) (_ : Nat) : Except Failure Connection :=
  let reason :=
    if ':' ∈ url.toList then "no driver for this database"
    else "error with configuration: relative URL without a base"
  .error (.catalog ("connection failed: " ++ reason))

namespace ServiceConfig

/-- The protocol that is asked for, or else that of the settings. -/
def protocolFor (c : ServiceConfig) (requested : Option String) : Except Failure Protocol :=
  Protocol.ofName (requested.getD c.protocol)

/-- The URL that is given counts before that of the settings. -/
def databaseUrl (c : ServiceConfig) (given : Option String) : Except Failure String :=
  match given.or c.database.url with
  | some url => .ok url
  | none => .error (.missing "database URL")

/-- The engine of a connected service. -/
def engine (c : ServiceConfig) (p : Protocol) (connection : Connection) : Engine :=
  let g := Engine.make p c.context
  match c.cutout with
  | some cutout => if p.hasAccess then g.withCutouts (connection.cutouts cutout) else g
  | none => g

/-- What has to be right before the database is connected to: the parameters, the query, and that
there is a database. -/
def prepare (c : ServiceConfig) (p : Protocol) (pairs : List (String × String))
    (given : Option String) : Except Failure (ParameterSet × String) := do
  let s ← ParameterSet.read p pairs
  let _ ← (Engine.make p c.context).compile s
  return (s, ← c.databaseUrl given)

/-- Answers a request. -/
def answer (c : ServiceConfig) (connect : Connector) (p : Protocol)
    (pairs : List (String × String)) (given : Option String) :
    Logged (Except Failure Response) := do
  match c.prepare p pairs given with
  | .error f => return .error f
  | .ok (s, url) =>
    Logged.log (.connected url)
    match connect url c.database.maxConnections with
    | .error f => return .error f
    | .ok connection => (c.engine p connection).run s connection.catalog

end ServiceConfig

end SkyDiscovery
