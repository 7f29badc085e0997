import SkyDiscovery.Failure
import SkyDiscovery.Text.Blank
import SkyDiscovery.Text.Case

/-!
# Coordinate frames

The frames that a client may name for a position.  Only ICRS positions can be searched.
-/

namespace SkyDiscovery

inductive Frame where
  | icrs
  | fk5
  | fk4
  | galactic
  | ecliptic
  deriving DecidableEq, Repr, Inhabited

namespace Frame

/-- The name by which the frame is shown. -/
def name : Frame → String
  | icrs => "ICRS"
  | fk5 => "FK5"
  | fk4 => "FK4"
  | galactic => "GALACTIC"
  | ecliptic => "ECLIPTIC"

/-- The frame of a position without a frame. -/
def standard : Frame := icrs

/-- Each frame under its name and the shorter names for it. -/
def table : List (String × Frame) :=
  [("ICRS", icrs), ("FK5", fk5), ("J2000", fk5), ("FK4", fk4), ("B1950", fk4),
    ("GALACTIC", galactic), ("GAL", galactic), ("ECLIPTIC", ecliptic), ("ECL", ecliptic)]

/-- The frame of a name in any case, with blanks around it. -/
def ofName (s : String) : Except Failure Frame :=
  match table.lookup (Text.capitals (Text.trimmed s)) with
  | some f => .ok f
  | none => .error (.unsupportedFrame s)

def isSupported (f : Frame) : Bool :=
  f == icrs

/-- The frame of a name, if it can be searched. -/
def supportedOfName (s : String) : Except Failure Frame :=
  match ofName s with
  | .ok f => if f.isSupported then .ok f else .error (.unsupportedFrame s)
  | .error e => .error e

end Frame

end SkyDiscovery
