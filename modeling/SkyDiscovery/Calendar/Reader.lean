import SkyDiscovery.Calendar.Instant
import SkyDiscovery.Text.Blank

/-!
# Reading dates

A date text is tried in turn as a full timestamp with an offset, as a date and time in UTC, as a
day, and as a month.  Apart from the full timestamp, which has fixed widths, the fields may be
shorter and may follow blanks, and a year with a sign may be longer.

`looksLikeDate` is the test by which an undeclared text is taken for a date at all.
-/

namespace SkyDiscovery.Calendar

open Text

/-! ## Fields -/

/-- Reads at least `least` and at most `most` digits. -/
def readDigits (least most : Nat) (cs : List Char) : Option (Nat × List Char) :=
  let ds := (cs.take most).takeWhile Char.isDigit
  if ds.length < least then none else some (valueOfDigits 0 ds, cs.drop ds.length)

def expect (c : Char) : List Char → Option (List Char)
  | [] => none
  | d :: cs => if c = d then some cs else none

/-- A field of one or two digits after blanks. -/
def readField (cs : List Char) : Option (Nat × List Char) :=
  readDigits 1 2 (trimStart cs)

/-- A year of up to four digits, or of any number of digits after a sign. -/
def readYear (cs : List Char) : Option (Int × List Char) :=
  match trimStart cs with
  | '-' :: r => (readDigits 1 r.length r).map fun (n, r) => (-(n : Int), r)
  | '+' :: r => (readDigits 1 r.length r).map fun (n, r) => ((n : Int), r)
  | r => (readDigits 1 4 r).map fun (n, r) => ((n : Int), r)

/-- An optional fraction of a second, in nanoseconds; digits after the ninth are dropped. -/
def readFraction : List Char → Option (Nat × List Char)
  | '.' :: cs =>
    (readDigits 1 9 cs).map fun (n, r) =>
      (n * Nat.pow 10 (9 - (cs.length - r.length)), r.dropWhile Char.isDigit)
  | cs => some (0, cs)

/-- A day `Y-M-D`. -/
def readDay (cs : List Char) : Option (Day × List Char) := do
  let (year, cs) ← readYear cs
  let cs ← expect '-' cs
  let (month, cs) ← readField cs
  let cs ← expect '-' cs
  let (day, cs) ← readField cs
  return (⟨year, month, day⟩, cs)

/-- The instant of valid fields that use up the text. -/
def finish (d : Day) (t : TimeOfDay) (offset : Int) (rest : List Char) : Option Instant :=
  if rest.isEmpty && d.isValid && t.isValid then some (.ofLocal d t offset) else none

/-! ## Forms of a date -/

/-- An offset from UTC: `Z`, or a sign, two digits of hours, a colon and two digits of minutes, in
seconds. -/
def readOffset : List Char → Option (Int × List Char)
  | [] => none
  | c :: cs =>
    if c = 'Z' ∨ c = 'z' then some (0, cs)
    else do
      let (hours, cs) ← readDigits 2 2 cs
      let cs ← expect ':' cs
      let (minutes, cs) ← readDigits 2 2 cs
      if hours ≤ 23 ∧ minutes ≤ 59 then
        let offset : Int := hours * 3600 + minutes * 60
        if c = '+' then some (offset, cs)
        else if c = '-' ∨ c = '\u2212' then some (-offset, cs)
        else none
      else none

/-- A timestamp with fixed widths and an offset. -/
def readTimestamp (cs : List Char) : Option Instant := do
  let (year, cs) ← readDigits 4 4 cs
  let cs ← expect '-' cs
  let (month, cs) ← readDigits 2 2 cs
  let cs ← expect '-' cs
  let (day, cs) ← readDigits 2 2 cs
  let cs ←
    match cs with
    | c :: r => if c = 'T' ∨ c = 't' ∨ c = ' ' then some r else none
    | [] => none
  let (hour, cs) ← readDigits 2 2 cs
  let cs ← expect ':' cs
  let (minute, cs) ← readDigits 2 2 cs
  let cs ← expect ':' cs
  let (second, cs) ← readDigits 2 2 cs
  let (nanos, cs) ← readFraction cs
  let (offset, cs) ← readOffset cs
  finish ⟨year, month, day⟩ ⟨hour, minute, second, nanos⟩ offset cs

/-- A day and a time in UTC. -/
def readDayTime (cs : List Char) : Option Instant := do
  let (d, cs) ← readDay cs
  let cs ← expect 'T' cs
  let (hour, cs) ← readField cs
  let cs ← expect ':' cs
  let (minute, cs) ← readField cs
  let cs ← expect ':' cs
  let (second, cs) ← readField cs
  let (nanos, cs) ← readFraction cs
  finish d ⟨hour, minute, second, nanos⟩ 0 cs

/-- A day and a time without seconds in UTC. -/
def readDayMinute (cs : List Char) : Option Instant := do
  let (d, cs) ← readDay cs
  let cs ← expect 'T' cs
  let (hour, cs) ← readField cs
  let cs ← expect ':' cs
  let (minute, cs) ← readField cs
  finish d ⟨hour, minute, 0, 0⟩ 0 cs

/-- The start of a day. -/
def readWholeDay (cs : List Char) : Option Instant := do
  let (d, cs) ← readDay cs
  finish d .midnight 0 cs

/-! ## Dates -/

/-- Reads a trimmed date; a month stands for its first day. -/
def readTrimmed (cs : List Char) : Option Instant :=
  readTimestamp cs <|> readDayTime cs <|> readDayMinute cs <|> readWholeDay cs <|>
    readWholeDay (cs ++ "-01".toList)

def readDate (cs : List Char) : Option Instant :=
  readTrimmed (trim cs)

/-- Whether a text begins as a date does: four digits, a hyphen and two digits. -/
def looksLikeDate (cs : List Char) : Bool :=
  match trim cs with
  | a :: b :: c :: d :: e :: f :: g :: _ =>
    a.isDigit && b.isDigit && c.isDigit && d.isDigit && e == '-' && f.isDigit && g.isDigit
  | _ => false

/-- The message for a text that is no date. -/
def invalidDate (cs : List Char) : String :=
  "invalid ISO date string: " ++ String.ofList (trim cs)

end SkyDiscovery.Calendar
