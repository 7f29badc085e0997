/-!
# Decimal digits

Whole numbers read from and written in decimal digits.
-/

namespace SkyDiscovery.Text

/-- The decimal digits of `n`, without leading zeros. -/
def digits (n : Nat) : List Char :=
  Nat.toDigits 10 n

/-- The digits of `n`, filled up with leading zeros to at least `width`. -/
def padded (width n : Nat) : List Char :=
  let ds := digits n
  List.replicate (width - ds.length) '0' ++ ds

/-- The digits of `n` after a minus sign if it is negative. -/
def signedDigits : Int → List Char
  | .ofNat n => digits n
  | .negSucc n => '-' :: digits (n + 1)

def digitValue (c : Char) : Nat :=
  c.toNat - 48

/-- The number that a run of digits writes; `start` is the value of the digits before them. -/
def valueOfDigits (start : Nat) (cs : List Char) : Nat :=
  cs.foldl (fun n c => n * 10 + digitValue c) start

/-- Reads a text made of digits only. -/
def readNat (cs : List Char) : Option Nat :=
  if cs ≠ [] ∧ cs.all Char.isDigit then some (valueOfDigits 0 cs) else none

/-- Reads digits after an optional sign. -/
def readInt : List Char → Option Int
  | '-' :: cs => (readNat cs).map fun n => -(n : Int)
  | '+' :: cs => (readNat cs).map Int.ofNat
  | cs => (readNat cs).map Int.ofNat

/-- Reads a signed number of 64 bits. -/
def readInt64 (cs : List Char) : Option Int :=
  (readInt cs).filter fun n => -0x8000_0000_0000_0000 ≤ n && n < 0x8000_0000_0000_0000

end SkyDiscovery.Text
