import SkyDiscovery.Text.Hexadecimal
import SkyDiscovery.Text.Split
import SkyDiscovery.Text.Utf8

/-!
# Form encoding

The encoding application/x-www-form-urlencoded of query values.  Letters, digits and `*-._` stand
for themselves, a space is written `+`, and any other byte is written `%` and two capital
hexadecimal digits.  Decoding accepts any text: a `%` without two digits stands for itself, and
bytes that are not UTF-8 become replacement characters.
-/

namespace SkyDiscovery.Text.FormEncoding

/-- The bytes that stand for themselves. -/
def isKept (b : UInt8) : Bool :=
  inSpan 0x30 0x39 b || inSpan 0x41 0x5A b || inSpan 0x61 0x7A b
    || b == 0x2A || b == 0x2D || b == 0x2E || b == 0x5F

def encodeByte (b : UInt8) : List Char :=
  if isKept b then [Char.ofNat b.toNat]
  else if b = 0x20 then ['+']
  else ['%', hexDigit (b.toNat / 16), hexDigit (b.toNat % 16)]

def encodeBytes (bs : List UInt8) : List Char :=
  bs.flatMap encodeByte

/-- The byte that two hexadecimal digits stand for. -/
def escaped (high low : UInt8) : Option UInt8 := do
  let digit (b : UInt8) : Option Nat := hexValue (Char.ofNat b.toNat)
  return UInt8.ofNat ((← digit high) * 16 + (← digit low))

def decodeBytes : List UInt8 → List UInt8
  | [] => []
  | a :: r =>
    if a = 0x2B then 0x20 :: decodeBytes r
    else if a = 0x25 then
      match r with
      | high :: low :: s =>
        match escaped high low with
        | some b => b :: decodeBytes s
        | none => a :: decodeBytes (high :: low :: s)
      | [b] => a :: decodeBytes [b]
      | [] => [a]
    else a :: decodeBytes r

def encode (s : String) : String :=
  String.ofList (encodeBytes (bytes s.toList))

/-- Decodes one query value; it ends at the first `&`. -/
def decode (s : String) : String :=
  String.ofList (ofBytes (decodeBytes (bytes (before '&' s.toList))))

end SkyDiscovery.Text.FormEncoding
