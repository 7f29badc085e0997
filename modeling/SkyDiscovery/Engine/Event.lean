import SkyDiscovery.Cutout.Keywords
import SkyDiscovery.Cutout.Request
import SkyDiscovery.Record.Row

/-!
# Collaborators and events

A run of the engine works with a catalog, with a locator of files and with a task that computes
cutouts.  They are given as functions, and a run records each call to one of them as an event, so
what a run does to the outside is part of its result.
-/

namespace SkyDiscovery

/-- What a cursor of the catalog yields next. -/
abbrev CursorItem := Except Failure Row

structure Catalog where
  /-- Opens a session. -/
  openSession : Except Failure Unit
  /-- The rows of a query, each with the fault that may come in its place. -/
  execute : String → Except Failure (List CursorItem)

/-- What is needed for virtual records. -/
structure CutoutService where
  /-- The archival file of a dataset, if it has one. -/
  locate : String → Except Failure (Option String)
  /-- The keywords of the cutout of a file, if there is anything to cut out. -/
  compute : String → CutoutRequest → Except Failure (Option Keywords)

inductive Event where
  /-- The catalog behind a database URL was connected to. -/
  | connected (url : String)
  | opened
  | executed (text : String)
  | read
  | located (publisherId : String)
  | computed (path : String) (request : CutoutRequest)
  | closed

/-- A result with the events on the way to it. -/
structure Logged (α : Type) where
  events : List Event
  value : α

namespace Logged

def pure {α : Type} (a : α) : Logged α :=
  ⟨[], a⟩

def bind {α β : Type} (l : Logged α) (f : α → Logged β) : Logged β :=
  let m := f l.value
  ⟨l.events ++ m.events, m.value⟩

instance : Monad Logged where
  pure := pure
  bind := bind

def log (e : Event) : Logged Unit :=
  ⟨[e], ()⟩

end Logged

end SkyDiscovery
