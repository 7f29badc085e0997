import SkyDiscovery.Json.Basic
import SkyDiscovery.Text.Hexadecimal

/-!
# Reading JSON text

The reader accepts one value with blanks around it.  Arrays and objects may be nested 127 deep.
Of several members under one key the last counts.

A whole number that fits 64 bits is kept as it is.  Any other number is computed in doubles, from
as many of its leading digits as 64 bits hold and a power of ten; a number that overflows is
refused.
-/

namespace SkyDiscovery.Json

open Text

/-! ## Numbers -/

/-- Appends digits to a number as long as it fits 64 bits; the result tells how many. -/
def absorb (start : Nat) : List Char → Nat × Nat
  | [] => (start, 0)
  | c :: cs =>
    let next := start * 10 + digitValue c
    if next < 0x1_0000_0000_0000_0000 then
      let (n, taken) := absorb next cs
      (n, taken + 1)
    else (start, 0)

/-- The double `10 ^ n`. -/
def tenTo (n : Nat) : Float :=
  Float.ofScientific 1 false n

/-- The double `s * 10 ^ e`, in one multiplication or division while the power is a double. -/
def scaled (s : Nat) (e : Int) : Option Float :=
  let f := Float.ofNat s
  if 308 < e then (if s = 0 then some 0.0 else none)
  else if 0 ≤ e then
    let x := f * tenTo e.toNat
    if x.isInf then none else some x
  else if -308 ≤ e then some (f / tenTo (-e).toNat)
  else if -616 ≤ e then some (f / tenTo 308 / tenTo (-e - 308).toNat)
  else some 0.0

/-- The value of a number from its sign, its digits before and after the point and its exponent. -/
def realValue (negative : Bool) (whole places : List Char) (e : Int) : Option Numeral :=
  let (s, taken) := absorb 0 whole
  let (s', taken') := absorb s places
  (scaled s' (e + (whole.length - taken : Nat) - taken')).map fun x =>
    .real (if negative then -x else x)

/-- The value of a number without point and exponent. -/
def wholeValue (negative : Bool) (whole : List Char) : Option Numeral :=
  let n := valueOfDigits 0 whole
  if negative then
    if 0 < n ∧ n ≤ 0x8000_0000_0000_0000 then some (.integer (-n)) else realValue true whole [] 0
  else
    if n < 0x1_0000_0000_0000_0000 then some (.integer n) else realValue false whole [] 0

/-- Digits after an optional sign, and the rest. -/
def readPower (cs : List Char) : Option (Int × List Char) :=
  let (negative, cs) :=
    match cs with
    | '-' :: r => (true, r)
    | '+' :: r => (false, r)
    | r => (false, r)
  let ds := cs.takeWhile Char.isDigit
  if ds.isEmpty then none
  else
    let n : Int := valueOfDigits 0 ds
    some (if negative then -n else n, cs.dropWhile Char.isDigit)

/-- Reads the rest of a number after its whole part. -/
def readFraction (negative : Bool) (whole cs : List Char) : Option (Numeral × List Char) := do
  let (places, rest) ←
    match cs with
    | '.' :: r =>
      let ds := r.takeWhile Char.isDigit
      if ds.isEmpty then none else some (ds, r.dropWhile Char.isDigit)
    | r => some ([], r)
  match rest with
  | 'e' :: r | 'E' :: r =>
    let (e, rest) ← readPower r
    return (← realValue negative whole places e, rest)
  | _ =>
    if places.isEmpty then return (← wholeValue negative whole, rest)
    else return (← realValue negative whole places 0, rest)

/-- Reads a number; its whole part has no needless leading zero. -/
def readNumber (cs : List Char) : Option (Numeral × List Char) :=
  let (negative, cs) :=
    match cs with
    | '-' :: r => (true, r)
    | r => (false, r)
  let whole := cs.takeWhile Char.isDigit
  match whole with
  | [] => none
  | '0' :: _ :: _ => none
  | _ => readFraction negative whole (cs.dropWhile Char.isDigit)

/-! ## Texts -/

/-- The value of four hexadecimal digits. -/
def hex4 (a b c d : Char) : Option Nat := do
  return (((← hexValue a) * 16 + (← hexValue b)) * 16 + (← hexValue c)) * 16 + (← hexValue d)

/-- The character of a one-letter escape. -/
def shortEscape (c : Char) : Option Char :=
  [('"', '"'), ('\\', '\\'), ('/', '/'), ('b', '\x08'), ('f', '\x0c'), ('n', '\n'), ('r', '\r'),
    ('t', '\t')].lookup c

/-- Reads a text after its opening quote.  A character outside the basic plane may be escaped as
two surrogates; a lone surrogate is refused. -/
def readText : List Char → Option (List Char × List Char)
  | [] => none
  | '"' :: rest => some ([], rest)
  | '\\' :: 'u' :: a :: b :: c :: d :: '\\' :: 'u' :: e :: f :: g :: h :: rest => do
    let high ← hex4 a b c d
    if 0xD800 ≤ high ∧ high < 0xDC00 then
      let low ← hex4 e f g h
      if 0xDC00 ≤ low ∧ low < 0xE000 then
        let (s, r) ← readText rest
        return (Char.ofNat (0x10000 + (high - 0xD800) * 0x400 + (low - 0xDC00)) :: s, r)
      else none
    else if 0xDC00 ≤ high ∧ high < 0xE000 then none
    else
      let (s, r) ← readText ('\\' :: 'u' :: e :: f :: g :: h :: rest)
      return (Char.ofNat high :: s, r)
  | '\\' :: 'u' :: a :: b :: c :: d :: rest => do
    let n ← hex4 a b c d
    if 0xD800 ≤ n ∧ n < 0xE000 then none
    else
      let (s, r) ← readText rest
      return (Char.ofNat n :: s, r)
  | '\\' :: c :: rest => do
    let x ← shortEscape c
    let (s, r) ← readText rest
    return (x :: s, r)
  | c :: rest => do
    if c.toNat < 0x20 then none
    else
      let (s, r) ← readText rest
      return (c :: s, r)

/-! ## Values -/

def isSpace (c : Char) : Bool :=
  c == ' ' || c == '\n' || c == '\t' || c == '\r'

def skip (cs : List Char) : List Char :=
  cs.dropWhile isSpace

/-- The rest after a literal word. -/
def after (word : String) (cs : List Char) : Option (List Char) :=
  if word.toList.isPrefixOf cs then some (cs.drop word.length) else none

mutual

/-- Reads a value; `depth` bounds the nesting and `fuel` the number of steps. -/
def readValue : Nat → Nat → List Char → Option (Json × List Char)
  | 0, _, _ => none
  | fuel + 1, depth, cs =>
    match cs with
    | '"' :: r => (readText r).map fun (s, r) => (text (String.ofList s), r)
    | '[' :: r =>
      if depth ≤ 1 then none
      else
        match skip r with
        | ']' :: r => some (array [], r)
        | r => (readItems fuel (depth - 1) r).map fun (xs, r) => (array xs, r)
    | '\x7b' :: r =>
      if depth ≤ 1 then none
      else
        match skip r with
        | '\x7d' :: r => some (object [], r)
        | r => (readMembers fuel (depth - 1) [] r).map fun (ms, r) => (object ms, r)
    | 'n' :: _ => (after "null" cs).map fun r => (null, r)
    | 't' :: _ => (after "true" cs).map fun r => (bool true, r)
    | 'f' :: _ => (after "false" cs).map fun r => (bool false, r)
    | _ => (readNumber cs).map fun (n, r) => (number n, r)

/-- Reads the items of an array up to its closing bracket. -/
def readItems : Nat → Nat → List Char → Option (List Json × List Char)
  | 0, _, _ => none
  | fuel + 1, depth, cs => do
    let (x, r) ← readValue fuel depth (skip cs)
    match skip r with
    | ']' :: r => return ([x], r)
    | ',' :: r =>
      let (xs, r) ← readItems fuel depth r
      return (x :: xs, r)
    | _ => none

/-- Reads the members of an object up to its closing brace. -/
def readMembers :
    Nat → Nat → List (String × Json) → List Char → Option (List (String × Json) × List Char)
  | 0, _, _, _ => none
  | fuel + 1, depth, found, cs =>
    match skip cs with
    | '"' :: r => do
      let (key, r) ← readText r
      match skip r with
      | ':' :: r =>
        let (x, r) ← readValue fuel depth (skip r)
        let found := Dictionary.insertEntry (String.ofList key) x found
        match skip r with
        | '\x7d' :: r => return (found, r)
        | ',' :: r => readMembers fuel depth found r
        | _ => none
      | _ => none
    | _ => none

end

/-- Reads a text that is one JSON value. -/
def read (s : String) : Option Json :=
  let cs := s.toList
  match readValue (2 * cs.length + 2) 128 (skip cs) with
  | some (x, r) => if (skip r).isEmpty then some x else none
  | none => none

end SkyDiscovery.Json
