import SkyDiscovery.Calendar.Reader
import SkyDiscovery.Number.Shortest

/-!
# Endpoints of ranges

An endpoint is a number, a text or a date.  Endpoints of one type are ordered by value, and
endpoints of different types by their types, so that the order is total.
-/

namespace SkyDiscovery

inductive ValueType where
  | numeric
  | date
  | text
  deriving DecidableEq, Repr, Inhabited

namespace ValueType

/-- The name of the type in messages. -/
def name : ValueType → String
  | numeric => "Numeric"
  | date => "IsoDate"
  | text => "String"

/-- The place of the type in the order of endpoints of different types. -/
def rank : ValueType → Nat
  | numeric => 0
  | date => 1
  | text => 2

end ValueType

inductive Endpoint where
  | number (x : Binary64)
  | text (s : String)
  | date (t : Calendar.Instant)
  deriving DecidableEq, Inhabited

namespace Endpoint

def type : Endpoint → ValueType
  | number _ => .numeric
  | text _ => .text
  | date _ => .date

def date? : Endpoint → Option Calendar.Instant
  | date t => some t
  | _ => none

/-- The endpoint as a number, a date as its Modified Julian Date and a text as the number it
writes, if it writes one. -/
def amount? {α : Type} [Scalar α] (ofNumber : Binary64 → α) : Endpoint → Option α
  | number x => some (ofNumber x)
  | date t => some t.mjd
  | text s => (Binary64.read (Text.trim s.toList)).map ofNumber

def compare : Endpoint → Endpoint → Ordering
  | number x, number y => x.compareTotal y
  | text s, text t => compareOfLessAndEq s t
  | date s, date t => s.compare t
  | a, b => Ord.compare a.type.rank b.type.rank

/-- Equality in which numbers are compared as numbers. -/
def same : Endpoint → Endpoint → Bool
  | number x, number y => x.sameNumber y
  | a, b => a == b

def write : Endpoint → List Char
  | number x => Layout.plain.write x
  | text s => s.toList
  | date t => t.write

/-- Numbers must contain a digit, so that words such as `inf` and `nan` stay texts. -/
def infer (token : List Char) : Endpoint :=
  if token.any Char.isDigit then
    match Binary64.read token with
    | some x => number x
    | none => text (String.ofList token)
  else text (String.ofList token)

end Endpoint

end SkyDiscovery
