import SkyDiscovery.Dictionary
import SkyDiscovery.Number.Shortest

/-!
# JSON values

Catalog rows, records, documents and settings are made of JSON values.  The members of an object
that is read stand in the order of their keys; those of an object that is built stand as given.
-/

namespace SkyDiscovery

/-- A number is a whole number of 64 bits or a finite double; `42` and `42.0` differ. -/
inductive Numeral where
  | integer (n : Int)
  | real (x : Float)
  deriving Inhabited

inductive Json where
  | null
  | bool (b : Bool)
  | number (n : Numeral)
  | text (s : String)
  | array (items : List Json)
  | object (members : List (String × Json))
  deriving Inhabited

namespace Numeral

def toFloat : Numeral → Float
  | integer n => Float.ofInt n
  | real x => x

def write : Numeral → List Char
  | integer n => Text.signedDigits n
  | real x => Layout.document.write (Binary64.ofFloat x)

end Numeral

namespace Json

/-- A double as a value; there is no number for a NaN or an infinity. -/
def ofFloat (x : Float) : Json :=
  if x.isFinite then number (.real x) else null

def ofInt (n : Int) : Json :=
  number (.integer n)

def ofNat (n : Nat) : Json :=
  number (.integer n)

def ofOption {α : Type} (f : α → Json) : Option α → Json
  | none => null
  | some a => f a

def ofDictionary {α : Type} (f : α → Json) (d : Dictionary α) : Json :=
  object (d.entries.map fun e => (e.1, f e.2))

/-- The member of an object under a key. -/
def member? : Json → String → Option Json
  | object ms, key => ms.lookup key
  | _, _ => none

end Json

end SkyDiscovery
