import SkyDiscovery.Dictionary
import SkyDiscovery.Parameter.Declaration
import SkyDiscovery.Range.RangeList

/-!
# Parameter sets

The parameters of one request, under their names in lower case.  An empty value takes a parameter
away.  The range lists of a repeated parameter run together into one; any other parameter keeps the
value that came last.  A value that cannot be read is a failure, and a list that fails in the
middle has kept its first ranges.
-/

namespace SkyDiscovery

inductive ParameterValue where
  | ranges (list : RangeList)
  | text (s : String)
  | float (x : Float)
  | integer (n : Int)
  | boolean (b : Bool)
  deriving Inhabited

structure Parameter where
  /-- The declared name, or the client's spelling of a name that is not declared. -/
  name : String
  level : ParameterLevel
  /-- The value as it was given, trimmed. -/
  raw : String
  value : ParameterValue
  deriving Inhabited

namespace ParameterValue

/-- The failure of a range list, with the parameter it came in. -/
def rangeFailure (name : String) (f : RangeFault) : Failure :=
  .rangeList (name ++ ": " ++ f.message)

def readFloat (name value : String) : Except Failure ParameterValue :=
  match Binary64.read value.toList with
  | some x =>
    if x.isFinite then .ok (.float x.toFloat)
    else .error (.invalid name ("'" ++ value ++ "' is not a finite number"))
  | none => .error (.invalid name ("'" ++ value ++ "' is not a finite number"))

def readInteger (name value : String) : Except Failure ParameterValue :=
  match Text.readInt64 value.toList with
  | some n => .ok (.integer n)
  | none => .error (.invalid name ("'" ++ value ++ "' is not an integer"))

def readBoolean (name value : String) : Except Failure ParameterValue :=
  if Text.lower value ∈ ["true", "yes", "1"] then .ok (.boolean true)
  else if Text.lower value ∈ ["false", "no", "0"] then .ok (.boolean false)
  else .error (.invalid name ("'" ++ value ++ "' is not a boolean"))

/-- Reads the value of the parameter `name` as its kind says. -/
def read (name : String) (kind : ParameterKind) (value : String) :
    Except Failure ParameterValue :=
  match kind with
  | .ranges declared ordered =>
    match RangeList.read value.toList declared ordered with
    | .ok s => .ok (.ranges s)
    | .error f => .error (rangeFailure name f)
  | .text => .ok (.text value)
  | .float => readFloat name value
  | .integer => readInteger name value
  | .boolean => readBoolean name value

end ParameterValue

structure ParameterSet where
  parameters : Dictionary Parameter
  deriving Inhabited

namespace ParameterSet

def empty : ParameterSet := ⟨∅⟩

/-- The key of a name. -/
def key (name : String) : String :=
  Text.lower (Text.trimmed name)

/-- What is to be done with a name: its declaration, or that of a text from the client. -/
def declarationOf (protocol : Protocol) (name : String) : Declaration :=
  (protocol.declaration? name).getD ⟨Text.trimmed name, .text, .client, ""⟩

/-- Puts a value that was read under a key. -/
def store (s : ParameterSet) (key : String) (p : Parameter) : ParameterSet :=
  ⟨s.parameters.insert key p⟩

/-- Runs a further range list into the parameter `p` under a key. -/
def extendRanges (s : ParameterSet) (key : String) (p : Parameter) (list : RangeList)
    (d : Declaration) (value : String) : ParameterSet × Except Failure Unit :=
  match list.extend value.toList with
  | (t, .ok _) =>
    (s.store key { p with raw := p.raw ++ "," ++ value, value := .ranges t }, .ok ())
  | (t, .error f) =>
    (s.store key { p with value := .ranges t }, .error (ParameterValue.rangeFailure d.name f))

/-- Reads a value and puts it in the place of the one before. -/
def replace (s : ParameterSet) (key : String) (d : Declaration) (value : String) :
    ParameterSet × Except Failure Unit :=
  match ParameterValue.read d.name d.kind value with
  | .ok v => (s.store key ⟨d.name, d.level, value, v⟩, .ok ())
  | .error f => (s, .error f)

/-- The range list that a further value of this declaration runs into. -/
def heldRanges? (s : ParameterSet) (key : String) (d : Declaration) :
    Option (Parameter × RangeList) :=
  match d.kind, s.parameters.get? key with
  | .ranges _ _, some p =>
    match p.value with
    | .ranges list => some (p, list)
    | _ => none
  | _, _ => none

/-- Sets one parameter. -/
def set (protocol : Protocol) (s : ParameterSet) (name value : String) :
    ParameterSet × Except Failure Unit :=
  let value := Text.trimmed value
  if value.isEmpty then (⟨s.parameters.erase (key name)⟩, .ok ())
  else
    let d := declarationOf protocol name
    match s.heldRanges? (key name) d with
    | some (p, list) => s.extendRanges (key name) p list d value
    | none => s.replace (key name) d value

/-- Sets parameters one after the other, up to the first failure. -/
def setAll (protocol : Protocol) (s : ParameterSet) :
    List (String × String) → Except Failure ParameterSet
  | [] => .ok s
  | (name, value) :: rest =>
    match set protocol s name value with
    | (t, .ok _) => setAll protocol t rest
    | (_, .error f) => .error f

/-- The parameters of a request. -/
def read (protocol : Protocol) (pairs : List (String × String)) : Except Failure ParameterSet :=
  setAll protocol empty pairs

/-! ## Content -/

/-- The parameter of a name in any case. -/
def get? (s : ParameterSet) (name : String) : Option Parameter :=
  s.parameters.get? (Text.lower name)

def isSet (s : ParameterSet) (name : String) : Bool :=
  (s.get? name).isSome

/-- The value as it was given. -/
def text? (s : ParameterSet) (name : String) : Option String :=
  (s.get? name).map Parameter.raw

def ranges? (s : ParameterSet) (name : String) : Option RangeList :=
  match (s.get? name).map Parameter.value with
  | some (.ranges list) => some list
  | _ => none

/-- The value as a double; a whole number counts as one. -/
def float? (s : ParameterSet) (name : String) : Option Float :=
  match (s.get? name).map Parameter.value with
  | some (.float x) => some x
  | some (.integer n) => some (Float.ofInt n)
  | _ => none

def integer? (s : ParameterSet) (name : String) : Option Int :=
  match (s.get? name).map Parameter.value with
  | some (.integer n) => some n
  | _ => none

def boolean? (s : ParameterSet) (name : String) : Option Bool :=
  match (s.get? name).map Parameter.value with
  | some (.boolean b) => some b
  | _ => none

/-- The parameters in the order of their keys. -/
def toList (s : ParameterSet) : List Parameter :=
  s.parameters.values

def size (s : ParameterSet) : Nat :=
  s.parameters.size

end ParameterSet

end SkyDiscovery
