import SkyDiscovery.Number.Binary64
import SkyDiscovery.Text.Digits

/-!
# Decimal numbers

A decimal number is a coefficient and a power of ten.  Decimal text is read as the nearest double:
an optional sign, then digits with at most one point, at least one digit in all, and an optional
exponent; or one of the words `inf`, `infinity` and `nan` in any case.
-/

namespace SkyDiscovery

/-- The number `coefficient * 10 ^ exponent`. -/
structure Decimal where
  coefficient : Nat
  exponent : Int
  deriving DecidableEq, Repr

namespace Decimal

open Text

/-- The number of decimal digits of the coefficient. -/
def width (d : Decimal) : Nat :=
  (digits d.coefficient).length

/-- The double magnitude nearest to the number.  Numbers of 10^400 and more, or below 10^-400, need
no arithmetic. -/
def nearest (d : Decimal) : Nat :=
  if d.coefficient = 0 then 0
  else if 400 < d.exponent + d.width then Binary64.infinite
  else if d.exponent + d.width < -400 then 0
  else Binary64.nearest (d.coefficient * Nat.pow 10 d.exponent.toNat) (Nat.pow 10 (-d.exponent).toNat)

/-- Reads the exponent that may end a number. -/
def readExponent : List Char → Option Int
  | [] => some 0
  | c :: cs => if c = 'e' ∨ c = 'E' then readInt cs else none

/-- Reads an unsigned number. -/
def read (cs : List Char) : Option Decimal :=
  let whole := cs.takeWhile Char.isDigit
  let rest := cs.dropWhile Char.isDigit
  let (places, rest) :=
    match rest with
    | '.' :: r => (r.takeWhile Char.isDigit, r.dropWhile Char.isDigit)
    | r => ([], r)
  if whole.isEmpty && places.isEmpty then none
  else
    (readExponent rest).map fun e =>
      ⟨valueOfDigits 0 (whole ++ places), e - places.length⟩

end Decimal

namespace Binary64

/-- Reads a word that stands for an infinity or a NaN. -/
def readWord (negative : Bool) (cs : List Char) : Option Binary64 :=
  let w := cs.map Char.toLower
  if w = "inf".toList ∨ w = "infinity".toList then some (infinity negative)
  else if w = "nan".toList then some (nan negative)
  else none

def readUnsigned (negative : Bool) (cs : List Char) : Option Binary64 :=
  match Decimal.read cs with
  | some d => some (ofMagnitude negative d.nearest)
  | none => readWord negative cs

/-- Reads decimal text as the nearest double. -/
def read : List Char → Option Binary64
  | '-' :: cs => readUnsigned true cs
  | '+' :: cs => readUnsigned false cs
  | cs => readUnsigned false cs

end Binary64

end SkyDiscovery
