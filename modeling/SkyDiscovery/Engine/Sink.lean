import SkyDiscovery.Failure
import SkyDiscovery.Record.Record

/-!
# Record sinks

A sink collects the records of a response up to a cap.
-/

namespace SkyDiscovery

structure Sink where
  cap : Nat
  records : List Record

namespace Sink

def empty (cap : Nat) : Sink := ⟨cap, []⟩

def size (s : Sink) : Nat :=
  s.records.length

/-- Fails when no further record fits. -/
def ensureRoom (s : Sink) : Except Failure Unit :=
  if s.cap ≤ s.size then .error (.recordLimit s.cap) else .ok ()

/-- Adds a record, if it fits. -/
def push (s : Sink) (r : Record) : Except Failure Sink :=
  s.ensureRoom.map fun _ => { s with records := s.records ++ [r] }

end Sink

end SkyDiscovery
