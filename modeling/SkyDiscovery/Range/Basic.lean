import SkyDiscovery.Range.Endpoint

/-!
# Ranges

A range is unbounded, bounded on one side, bounded on both sides, or a single value.  Ranges are
ordered by their lower bounds, a missing one first, and then by their upper bounds, a missing one
last.
-/

namespace SkyDiscovery

inductive Range where
  | any
  | single (value : Endpoint)
  | atLeast (low : Endpoint)
  | atMost (high : Endpoint)
  | closed (low high : Endpoint)
  deriving DecidableEq, Inhabited

namespace Range

def low? : Range → Option Endpoint
  | single v => some v
  | atLeast low | closed low _ => some low
  | any | atMost _ => none

def high? : Range → Option Endpoint
  | single v => some v
  | atMost high | closed _ high => some high
  | any | atLeast _ => none

/-- The single value, or else the first bound. -/
def value? (r : Range) : Option Endpoint :=
  r.low?.or r.high?

/-- The type of the bounds; the unbounded range has none. -/
def type? (r : Range) : Option ValueType :=
  r.value?.map Endpoint.type

/-- The two bounds as numbers. -/
def amounts {α : Type} [Scalar α] (ofNumber : Binary64 → α) (r : Range) : Option α × Option α :=
  (r.low?.bind (Endpoint.amount? ofNumber), r.high?.bind (Endpoint.amount? ofNumber))

/-- The two bounds as doubles. -/
def bounds (r : Range) : Option Float × Option Float :=
  r.amounts Binary64.toFloat

/-! ## Order -/

def compareLow : Option Endpoint → Option Endpoint → Ordering
  | none, none => .eq
  | none, some _ => .lt
  | some _, none => .gt
  | some a, some b => a.compare b

def compareHigh : Option Endpoint → Option Endpoint → Ordering
  | none, none => .eq
  | none, some _ => .gt
  | some _, none => .lt
  | some a, some b => a.compare b

def compare (r s : Range) : Ordering :=
  (compareLow r.low? s.low?).then (compareHigh r.high? s.high?)

/-- The range with the bounds of a closed range put in order. -/
def normalize : Range → Range
  | closed low high => if low.compare high = .gt then closed high low else closed low high
  | r => r

/-- Equality in which numbers are compared as numbers. -/
def same : Range → Range → Bool
  | any, any => true
  | single a, single b | atLeast a, atLeast b | atMost a, atMost b => a.same b
  | closed a b, closed c d => a.same c && b.same d
  | _, _ => false

/-! ## Text -/

def write : Range → List Char
  | any => ['/']
  | single v => v.write
  | atLeast low => low.write ++ ['/']
  | atMost high => '/' :: high.write
  | closed low high => low.write ++ '/' :: high.write

def text (r : Range) : String :=
  String.ofList r.write

end Range

/-! ## Faults -/

/-- What can be wrong with a range list, or with the use of one. -/
inductive RangeFault where
  | mixedEndpoints (low high : Endpoint)
  | unnamedProperty (item : String)
  | manySlashes (element : String)
  | invalidDate (token : String)
  | mixedTypes (range : Range) (expected : ValueType)
  | noElement (index : Nat)
  | notNumeric (range : Range)
  | noValue (index : Nat)
  deriving DecidableEq

namespace RangeFault

def message : RangeFault → String
  | mixedEndpoints low high =>
    "range endpoints '" ++ String.ofList low.write ++ "' and '" ++ String.ofList high.write ++
      "' have different types"
  | unnamedProperty item => "property '" ++ item ++ "' has no name"
  | manySlashes element => "malformed range '" ++ element ++ "': too many '/' separators"
  | invalidDate token => Calendar.invalidDate token.toList
  | mixedTypes range expected =>
    "types cannot be mixed in range list: '" ++ range.text ++ "' is not " ++ expected.name
  | noElement index => "range list has no element " ++ String.ofList (Text.digits index)
  | notNumeric range => "element '" ++ range.text ++ "' is not numeric"
  | noValue index => "element " ++ String.ofList (Text.digits index) ++ " has no value"

end RangeFault

/-- A closed range; its endpoints are of one type. -/
def Range.between (low high : Endpoint) : Except RangeFault Range :=
  if low.type = high.type then .ok (.closed low high) else .error (.mixedEndpoints low high)

end SkyDiscovery
