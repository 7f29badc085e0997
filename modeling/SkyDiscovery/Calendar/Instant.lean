import SkyDiscovery.Calendar.Day
import SkyDiscovery.Number.Scalar
import SkyDiscovery.Text.Digits

/-!
# Instants

An instant is a count of seconds since the start of 1970 and of nanoseconds within the second.  A
leap second shares the count of the second before it and has 10^9 nanoseconds or more.  Instants
convert to Modified Julian Dates, and are written as dates with a time of day in UTC.
-/

namespace SkyDiscovery.Calendar

structure Instant where
  seconds : Int
  nanos : Nat
  deriving DecidableEq, Repr, Inhabited

/-- A time of day; second 60 is a leap second. -/
structure TimeOfDay where
  hour : Nat
  minute : Nat
  second : Nat
  nanos : Nat
  deriving DecidableEq, Repr

namespace TimeOfDay

def isValid (t : TimeOfDay) : Bool :=
  t.hour ≤ 23 && t.minute ≤ 59 && t.second ≤ 60

def midnight : TimeOfDay := ⟨0, 0, 0, 0⟩

end TimeOfDay

namespace Instant

/-- The instant of a local time that is `offset` seconds ahead of UTC. -/
def ofLocal (d : Day) (t : TimeOfDay) (offset : Int) : Instant :=
  let second := min t.second 59
  let leap := if t.second = 60 then 1_000_000_000 else 0
  ⟨d.number * 86400 + (t.hour * 3600 + t.minute * 60 + second : Nat) - offset, leap + t.nanos⟩

def day (t : Instant) : Day :=
  Day.ofNumber (t.seconds / 86400)

def timeOfDay (t : Instant) : TimeOfDay :=
  let s := (t.seconds % 86400).toNat
  ⟨s / 3600, s / 60 % 60, s % 60 + t.nanos / 1_000_000_000, t.nanos % 1_000_000_000⟩

/-- Earlier or later, leap seconds after the second they share a count with. -/
def compare (s t : Instant) : Ordering :=
  (Ord.compare s.seconds t.seconds).then (Ord.compare s.nanos t.nanos)

/-! ## Modified Julian Dates -/

/-- The Modified Julian Date, in days. -/
def mjd {α : Type} [Scalar α] (t : Instant) : α :=
  40587.0 + ((t.seconds : α) + ((t.nanos : Int) : α) * 1e-9) / 86400.0

/-- The instant of a Modified Julian Date, to the millisecond; there is none outside the years of
the calendar.  A NaN counts as the start of 1970. -/
def ofMjd? (mjd : Float) : Option Instant :=
  let millis := Binary64.ofFloat ((mjd - 40587.0) * 86400.0 * 1000.0)
  if millis.isFinite then
    let n := millis.toNearestInt
    let t : Instant := ⟨n / 1000, (n % 1000).toNat * 1_000_000⟩
    if t.day.isValid then some t else none
  else if millis.isNaN then some ⟨0, 0⟩
  else none

/-! ## Text -/

/-- Years beyond four digits carry a sign. -/
def writeYear (year : Int) : List Char :=
  if 0 ≤ year ∧ year ≤ 9999 then Text.padded 4 year.toNat
  else (if year < 0 then '-' else '+') :: Text.padded 4 year.natAbs

/-- The text `YYYY-MM-DDThh:mm:ssZ`, with milliseconds if there are any. -/
def write (t : Instant) : List Char :=
  let d := t.day
  let c := t.timeOfDay
  let millis := if t.nanos / 1_000_000 = 0 then []
    else '.' :: Text.padded 3 (c.nanos / 1_000_000)
  writeYear d.year ++ '-' :: Text.padded 2 d.month ++ '-' :: Text.padded 2 d.day ++
    'T' :: Text.padded 2 c.hour ++ ':' :: Text.padded 2 c.minute ++
    ':' :: Text.padded 2 c.second ++ millis ++ ['Z']

def text (t : Instant) : String :=
  String.ofList t.write

end Instant

end SkyDiscovery.Calendar
