import SkyDiscovery.Service.ConfigText

/-!
# Settings as written

Settings are written as JSON: words without quotes, quoted texts, lists, and groups of members under
quoted keys.  A word keeps its characters, since only the setting that it is given for tells whether
it is a number or a text.
-/

namespace SkyDiscovery

inductive ConfigNode where
  /-- A number, a truth value or `null`. -/
  | word (s : String)
  | quoted (s : String)
  | list (items : List ConfigNode)
  | group (members : List (String × ConfigNode))
  deriving Inhabited

namespace ConfigNode

/-- Whether a character may stand in a word. -/
def isWordCharacter (c : Char) : Bool :=
  c.isAlphanum || c == '+' || c == '-' || c == '.'

/-- Reads a key up to its colon. -/
def readKey (cs : List Char) : Option (String × List Char) :=
  match cs with
  | '"' :: r => do
    let (text, r) ← ConfigText.cut r
    let key ← ConfigText.value? text
    if ConfigText.isKey text (r.takeWhile Json.isSpace) then
      match Json.skip r with
      | ':' :: r => return (key, r)
      | _ => none
    else none
  | _ => none

mutual

/-- Reads a node; `fuel` bounds the number of steps. -/
def readNode : Nat → List Char → Option (ConfigNode × List Char)
  | 0, _ => none
  | fuel + 1, cs =>
    match cs with
    | '"' :: r => do
      let (text, r) ← ConfigText.cut r
      return (quoted (← ConfigText.value? text), r)
    | '[' :: r =>
      match Json.skip r with
      | ']' :: r => some (list [], r)
      | r => (readItems fuel r).map fun (xs, r) => (list xs, r)
    | '\x7b' :: r =>
      match Json.skip r with
      | '\x7d' :: r => some (group [], r)
      | r => (readMembers fuel r).map fun (ms, r) => (group ms, r)
    | _ =>
      let w := cs.takeWhile isWordCharacter
      if w.isEmpty then none else some (word (String.ofList w), cs.dropWhile isWordCharacter)

/-- Reads the items of a list up to its closing bracket. -/
def readItems : Nat → List Char → Option (List ConfigNode × List Char)
  | 0, _ => none
  | fuel + 1, cs => do
    let (x, r) ← readNode fuel (Json.skip cs)
    match Json.skip r with
    | ']' :: r => return ([x], r)
    | ',' :: r =>
      let (xs, r) ← readItems fuel r
      return (x :: xs, r)
    | _ => none

/-- Reads the members of a group up to its closing brace. -/
def readMembers : Nat → List Char → Option (List (String × ConfigNode) × List Char)
  | 0, _ => none
  | fuel + 1, cs => do
    let (key, r) ← readKey (Json.skip cs)
    let (x, r) ← readNode fuel (Json.skip r)
    match Json.skip r with
    | '\x7d' :: r => return ([(key, x)], r)
    | ',' :: r =>
      let (ms, r) ← readMembers fuel r
      return ((key, x) :: ms, r)
    | _ => none

end

/-- Reads a text that is one node. -/
def read? (s : String) : Option ConfigNode :=
  let cs := s.toList
  if cs.all ConfigText.isPrintable then
    match readNode (2 * cs.length + 2) (Json.skip cs) with
    | some (x, r) => if (Json.skip r).isEmpty then some x else none
    | none => none
  else none

end ConfigNode

end SkyDiscovery
