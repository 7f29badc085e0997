/-!
# UTF-8

The bytes of a text, and the text of arbitrary bytes, in which each longest run of bytes that
begins a character without completing it becomes the replacement character.
-/

namespace SkyDiscovery.Text

def bytes (cs : List Char) : List UInt8 :=
  cs.flatMap String.utf8EncodeChar

def replacement : Char := '\ufffd'

/-- Whether `b` lies between the two bounds. -/
def inSpan (low high b : UInt8) : Bool :=
  low ≤ b && b ≤ high

/-- The byte continues a character. -/
def isTail (b : UInt8) : Bool :=
  inSpan 0x80 0xBF b

/-- The second byte `b` can follow the first byte `a` of a character of three or four bytes, which
leaves out overlong forms, surrogates and code points above 10FFFF. -/
def canFollow (a b : UInt8) : Bool :=
  if a = 0xE0 then inSpan 0xA0 0xBF b
  else if a = 0xED then inSpan 0x80 0x9F b
  else if a = 0xF0 then inSpan 0x90 0xBF b
  else if a = 0xF4 then inSpan 0x80 0x8F b
  else isTail b

/-- The character with the given lead bits and the six low bits of each tail byte. -/
def assemble (lead : Nat) (tails : List UInt8) : Char :=
  Char.ofNat (tails.foldl (fun n b => n * 64 + b.toNat % 64) lead)

/-- Replaces what is not UTF-8, one replacement for each truncated character. -/
def ofBytes : List UInt8 → List Char
  | [] => []
  | a :: r =>
    if a < 0x80 then Char.ofNat a.toNat :: ofBytes r
    else if inSpan 0xC2 0xDF a then
      match r with
      | b :: s =>
        if isTail b then assemble (a.toNat % 32) [b] :: ofBytes s
        else replacement :: ofBytes (b :: s)
      | [] => [replacement]
    else if inSpan 0xE0 0xEF a then
      match r with
      | b :: c :: s =>
        if canFollow a b then
          if isTail c then assemble (a.toNat % 16) [b, c] :: ofBytes s
          else replacement :: ofBytes (c :: s)
        else replacement :: ofBytes (b :: c :: s)
      | [b] => if canFollow a b then [replacement] else replacement :: ofBytes [b]
      | [] => [replacement]
    else if inSpan 0xF0 0xF4 a then
      match r with
      | b :: c :: d :: s =>
        if canFollow a b then
          if isTail c then
            if isTail d then assemble (a.toNat % 8) [b, c, d] :: ofBytes s
            else replacement :: ofBytes (d :: s)
          else replacement :: ofBytes (c :: d :: s)
        else replacement :: ofBytes (b :: c :: d :: s)
      | [b, c] =>
        if canFollow a b then
          if isTail c then [replacement] else replacement :: ofBytes [c]
        else replacement :: ofBytes [b, c]
      | [b] => if canFollow a b then [replacement] else replacement :: ofBytes [b]
      | [] => [replacement]
    else replacement :: ofBytes r

end SkyDiscovery.Text
