import SkyDiscovery.Number.Decimal

/-!
# Shortest decimal text

The shortest decimal that reads back as a given double and, of the shortest, the nearest to it.
The search goes through the grids of 1, 2, … 17 digits and tests, on each, the two neighbours of
the exact value.  `Layout` says how the digits are written.
-/

namespace SkyDiscovery

/-- Which of two equally near decimals is taken. -/
inductive Tie where
  | upward
  | even
  deriving DecidableEq, Repr

namespace Decimal

/-- The exact value of a finite magnitude. -/
def ofMagnitude (m : Nat) : Decimal :=
  let s := Binary64.significand m
  let p := Binary64.power m
  if 0 ≤ p then ⟨s <<< p.toNat, 0⟩ else ⟨s * Nat.pow 5 (-p).toNat, p⟩

/-- The neighbours of `d` on the grid of `n` digits, the lower one first; `d` itself if it has no
more digits than that. -/
def neighbours (d : Decimal) (n : Nat) : Decimal × Decimal :=
  let cutOff := d.width - n
  let low := d.coefficient / Nat.pow 10 cutOff
  let high := if d.coefficient % Nat.pow 10 cutOff = 0 then low else low + 1
  (⟨low, d.exponent + cutOff⟩, ⟨high, d.exponent + cutOff⟩)

/-- The nearer to `d` of its neighbours on the grid of `n` digits. -/
def closer (tie : Tie) (d : Decimal) (n : Nat) : Decimal :=
  let (low, high) := d.neighbours n
  let unit := Nat.pow 10 (d.width - n)
  let rest := d.coefficient % unit
  if 2 * rest < unit then low
  else if unit < 2 * rest then high
  else match tie with
    | .upward => high
    | .even => if low.coefficient % 2 = 0 then low else high

/-- A decimal of at most `n` digits nearest to `d` among those that read back as `m`. -/
def onGrid? (tie : Tie) (m : Nat) (d : Decimal) (n : Nat) : Option Decimal :=
  let c := d.closer tie n
  let (low, high) := d.neighbours n
  if c.nearest = m then some c
  else if low.nearest = m then some low
  else if high.nearest = m then some high
  else none

/-- The coefficient without trailing zeros; `fuel` bounds their number. -/
def strip : Nat → Decimal → Decimal
  | 0, d => d
  | fuel + 1, d =>
    if d.coefficient % 10 = 0 ∧ d.coefficient ≠ 0 then
      strip fuel ⟨d.coefficient / 10, d.exponent + 1⟩
    else d

/-- The shortest decimal that reads back as the finite magnitude `m`. -/
def shortest (tie : Tie) (m : Nat) : Decimal :=
  let d := ofMagnitude m
  let found := (List.range 17).findSome? fun n => onGrid? tie m d (n + 1)
  let best := found.getD d
  strip best.width best

end Decimal

/-- How a double is written. -/
structure Layout where
  tie : Tie
  /-- The least and greatest decimal exponents written without an exponent part. -/
  positional : Int → Bool
  /-- Whether a whole number ends in `.0`. -/
  keepPoint : Bool

namespace Layout

open Text

/-- Numbers in messages, predicates and arguments: never an exponent, whole numbers without a
point. -/
def plain : Layout := ⟨.upward, fun _ => true, false⟩

/-- Numbers in documents: always a point or an exponent, an exponent below 10^-5 and from 10^16
on. -/
def document : Layout := ⟨.even, fun e => -5 ≤ e && e < 16, true⟩

/-- Digits written out in full, `point` of them before the point. -/
def placed (keepPoint : Bool) (ds : List Char) (point : Int) : List Char :=
  if point ≤ 0 then '0' :: '.' :: (List.replicate (-point).toNat '0' ++ ds)
  else if (ds.length : Int) ≤ point then
    ds ++ List.replicate (point.toNat - ds.length) '0' ++ (if keepPoint then ['.', '0'] else [])
  else ds.take point.toNat ++ '.' :: ds.drop point.toNat

/-- Digits with an exponent part, one digit before the point. -/
def scientific (ds : List Char) (e : Int) : List Char :=
  ds.take 1 ++ (if ds.length = 1 then [] else '.' :: ds.drop 1) ++
    'e' :: (if e < 0 then [] else ['+']) ++ signedDigits e

def writeMagnitude (l : Layout) (m : Nat) : List Char :=
  if m = 0 then (if l.keepPoint then "0.0".toList else ['0'])
  else
    let d := Decimal.shortest l.tie m
    let ds := digits d.coefficient
    let e := d.exponent + ds.length - 1
    if l.positional e then placed l.keepPoint ds (e + 1) else scientific ds e

/-- The text of a number; a NaN is written without its sign. -/
def write (l : Layout) (x : Binary64) : List Char :=
  if x.isNaN then "NaN".toList
  else
    let body := if x.isFinite then l.writeMagnitude x.magnitude else "inf".toList
    if x.isNegative then '-' :: body else body

end Layout

/-- The text of a number in messages, predicates and arguments. -/
def Binary64.text (x : Binary64) : String :=
  String.ofList (Layout.plain.write x)

/-- The text of a number in messages, predicates and arguments. -/
def plainText (x : Float) : String :=
  (Binary64.ofFloat x).text

end SkyDiscovery
