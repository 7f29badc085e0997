import SkyDiscovery.Range.Basic
import SkyDiscovery.Text.Split

/-!
# Range lists

A range list is a sequence of ranges between commas, followed after a semicolon by properties:

    1.2e-7/3.0e-7,5e-7/;source,frame=ICRS

Within a range a slash stands between the bounds, and a missing bound is open.  A list whose type
is declared or found holds ranges of that type; only an unordered list may mix types.  An ordered
list keeps its ranges sorted, with duplicates, and an unordered list keeps them as they came.

Reading adds to a list that may already hold ranges.  When it fails, what came before the fault
stays in the list.
-/

namespace SkyDiscovery

structure RangeList where
  ordered : Bool
  declared : Option ValueType
  ranges : List Range
  properties : List (String × String)
  deriving DecidableEq, Inhabited

namespace RangeList

open Text

def empty (declared : Option ValueType) (ordered : Bool) : RangeList :=
  ⟨ordered, declared, [], []⟩

/-- The declared type, or else the type of the first range that has one. -/
def type? (s : RangeList) : Option ValueType :=
  s.declared.or (s.ranges.findSome? Range.type?)

/-! ## Adding ranges and properties -/

/-- Puts a range behind those that are not greater. -/
def place (r : Range) : List Range → List Range
  | [] => [r]
  | x :: xs => if x.compare r = .gt then r :: x :: xs else x :: place r xs

def add (s : RangeList) (r : Range) : RangeList :=
  { s with ranges := if s.ordered then place r.normalize s.ranges else s.ranges ++ [r] }

/-- Adds a range; an ordered list refuses a range of another type than its own. -/
def push (s : RangeList) (r : Range) : Except RangeFault RangeList :=
  match r.type?, s.type? with
  | some t, some u => if s.ordered ∧ t ≠ u then .error (.mixedTypes r u) else .ok (s.add r)
  | _, _ => .ok (s.add r)

def setEntry (key value : String) : List (String × String) → List (String × String)
  | [] => [(key, value)]
  | (k, v) :: rest => if k = key then (k, value) :: rest else (k, v) :: setEntry key value rest

/-- Sets a property, in its old place if it is already there.  A property without a value is
`true`. -/
def setProperty (s : RangeList) (key : String) (value : Option String) : RangeList :=
  { s with properties := setEntry key (value.getD "true") s.properties }

def property? (s : RangeList) (key : String) : Option String :=
  s.properties.lookup key

/-! ## Reading -/

/-- Whether the tokens of an element are dates: the list holds dates, or its type is not declared
and one of the tokens looks like a date. -/
def readsDates (s : RangeList) (first : List Char) (second : Option (List Char)) : Bool :=
  s.type? == some .date ||
    (s.declared.isNone && (Calendar.looksLikeDate first || second.any Calendar.looksLikeDate))

def readEndpoint (asDate : Bool) (token : List Char) : Except RangeFault Endpoint :=
  if asDate then
    match Calendar.readDate token with
    | some t => .ok (.date t)
    | none => .error (.invalidDate (String.ofList token))
  else .ok (.infer token)

/-- Reads the range of an element, split at its slashes. -/
def readParts (s : RangeList) (element : List Char) :
    List (List Char) → Except RangeFault Range
  | [a] => do
    let first := trim a
    return .single (← readEndpoint (s.readsDates first none) first)
  | [a, b] =>
    let first := trim a
    let second := trim b
    let endpoint := readEndpoint (s.readsDates first (some second))
    match first.isEmpty, second.isEmpty with
    | true, true => .ok .any
    | false, true => do return .atLeast (← endpoint first)
    | true, false => do return .atMost (← endpoint second)
    | false, false => do Range.between (← endpoint first) (← endpoint second)
  | _ => .error (.manySlashes (String.ofList element))

/-- Reads one element.  A list declared to hold texts takes it as it is, with its slashes. -/
def readRange (s : RangeList) (element : List Char) : Except RangeFault Range :=
  if s.declared = some .text then .ok (.single (.text (String.ofList element)))
  else s.readParts element (splitOn (· == '/') element)

/-- Adds elements up to the first fault. -/
def addElements (s : RangeList) : List (List Char) → RangeList × Except RangeFault Nat
  | [] => (s, .ok 0)
  | e :: es =>
    match s.readRange e >>= s.push with
    | .error f => (s, .error f)
    | .ok t =>
      let (u, n) := t.addElements es
      (u, n.map (· + 1))

/-- Sets the property of one item. -/
def addProperty (s : RangeList) (item : List Char) : Except RangeFault RangeList :=
  match cut '=' item with
  | none => .ok (s.setProperty (String.ofList item) none)
  | some (key, value) =>
    if (trim key).isEmpty then .error (.unnamedProperty (String.ofList item))
    else .ok (s.setProperty (String.ofList (trim key)) (some (String.ofList (trim value))))

/-- Sets properties up to the first fault. -/
def addProperties (s : RangeList) : List (List Char) → RangeList × Except RangeFault Nat
  | [] => (s, .ok 0)
  | i :: is =>
    match s.addProperty i with
    | .error f => (s, .error f)
    | .ok t =>
      let (u, n) := t.addProperties is
      (u, n.map (· + 1))

def elementsOf (cs : List Char) : List (List Char) :=
  items (· == ',') cs

def propertiesOf (cs : List Char) : List (List Char) :=
  items (fun c => c == ',' || c == ';') cs

/-- Adds the ranges and properties of a text, and counts them. -/
def extend (s : RangeList) (cs : List Char) : RangeList × Except RangeFault Nat :=
  match cut ';' cs with
  | none => s.addElements (elementsOf cs)
  | some (ranges, properties) =>
    match s.addElements (elementsOf ranges) with
    | (t, .error f) => (t, .error f)
    | (t, .ok n) =>
      let (u, m) := t.addProperties (propertiesOf properties)
      (u, m.map (n + ·))

/-- Reads a text into an empty list. -/
def read (cs : List Char) (declared : Option ValueType) (ordered : Bool) :
    Except RangeFault RangeList :=
  match (empty declared ordered).extend cs with
  | (s, .ok _) => .ok s
  | (_, .error f) => .error f

/-- Reads an ordered list whose type is found from its content. -/
def readInferred (cs : List Char) : Except RangeFault RangeList :=
  read cs none true

/-! ## Content -/

def size (s : RangeList) : Nat :=
  s.ranges.length

/-- Whether the ranges are of more than one type. -/
def isMixed (s : RangeList) : Bool :=
  match s.ranges.filterMap Range.type? with
  | [] => false
  | t :: ts => ts.any (· != t)

def get (s : RangeList) (index : Nat) : Except RangeFault Range :=
  match s.ranges[index]? with
  | some r => .ok r
  | none => .error (.noElement index)

/-- The value at an index as a double. -/
def floatAt (s : RangeList) (index : Nat) : Except RangeFault Float := do
  let r ← s.get index
  match r.value?.bind (Endpoint.amount? Binary64.toFloat) with
  | some x => .ok x
  | none => .error (.notNumeric r)

/-- The text of the value at an index. -/
def textAt (s : RangeList) (index : Nat) : Except RangeFault String := do
  let r ← s.get index
  match r.value? with
  | some v => .ok (String.ofList v.write)
  | none => .error (.noValue index)

/-- Equality in which numbers are compared as numbers. -/
def same (s t : RangeList) : Bool :=
  s.ordered == t.ordered && s.declared.isSome == t.declared.isSome && s.type? == t.type? &&
    s.ranges.length == t.ranges.length && (s.ranges.zip t.ranges).all (fun (a, b) => a.same b) &&
    s.properties == t.properties

/-! ## Text -/

def writeProperty (p : String × String) : List Char :=
  p.1.toList ++ '=' :: p.2.toList

def write (s : RangeList) : List Char :=
  [','].intercalate (s.ranges.map Range.write) ++
    if s.properties.isEmpty then []
    else ';' :: [','].intercalate (s.properties.map writeProperty)

def text (s : RangeList) : String :=
  String.ofList s.write

end RangeList

end SkyDiscovery
