/-!
# Double-precision numbers by their bits

A number of 64 bits as its pattern, so that the two zeros and the NaNs of either sign stay apart.
A pattern is a sign and a magnitude; the magnitudes of the finite numbers are ordered as the
numbers are, and those above the magnitude of infinity are NaNs.  The file reads off the exact
value of a pattern, finds the pattern nearest to a quotient, and defines the total order.
-/

namespace SkyDiscovery

structure Binary64 where
  bits : UInt64
  deriving DecidableEq, Inhabited

namespace Binary64

def ofFloat (x : Float) : Binary64 := ⟨x.toBits⟩

def toFloat (x : Binary64) : Float := Float.ofBits x.bits

/-! ## Sign and magnitude -/

def isNegative (x : Binary64) : Bool :=
  0x8000_0000_0000_0000 ≤ x.bits.toNat

def magnitude (x : Binary64) : Nat :=
  x.bits.toNat % 0x8000_0000_0000_0000

def ofMagnitude (negative : Bool) (magnitude : Nat) : Binary64 :=
  ⟨UInt64.ofNat (if negative then 0x8000_0000_0000_0000 + magnitude else magnitude)⟩

/-- The magnitude of the two infinities. -/
def infinite : Nat := 0x7FF0_0000_0000_0000

def isFinite (x : Binary64) : Bool :=
  x.magnitude < infinite

def isNaN (x : Binary64) : Bool :=
  infinite < x.magnitude

def nan (negative : Bool) : Binary64 :=
  ofMagnitude negative (infinite + 0x8_0000_0000_0000)

def infinity (negative : Bool) : Binary64 :=
  ofMagnitude negative infinite

/-! ## The exact value -/

/-- The number of a finite magnitude is `significand m * 2 ^ power m`. -/
def significand (m : Nat) : Nat :=
  if m < 0x10_0000_0000_0000 then m else 0x10_0000_0000_0000 + m % 0x10_0000_0000_0000

def power (m : Nat) : Int :=
  if m < 0x10_0000_0000_0000 then -1074 else (m / 0x10_0000_0000_0000 : Nat) - 1075

/-- The magnitude as a quotient of whole numbers. -/
def quotient (m : Nat) : Nat × Nat :=
  (significand m <<< (power m).toNat, 1 <<< (-power m).toNat)

/-- The exact value of a finite number. -/
def toRat (x : Binary64) : Rat :=
  let (num, den) := quotient x.magnitude
  let value : Rat := (num : Rat) / (den : Rat)
  if x.isNegative then -value else value

/-! ## Rounding -/

/-- The quotient rounded to the nearest whole number, a half to the even neighbour. -/
def roundHalfEven (num den : Nat) : Nat :=
  let q := num / den
  let r := num % den
  if 2 * r < den then q
  else if den < 2 * r then q + 1
  else q + q % 2

/-- The quotient rounded to the nearest whole number, a half upwards. -/
def roundHalfUp (num den : Nat) : Nat :=
  (2 * num + den) / (2 * den)

/-- The magnitude nearest to `num / den`.  The power of two is the least for which the
significand has at most 53 bits, and a significand that rounds up to 54 bits carries over into the
next power. -/
def nearest (num den : Nat) : Nat :=
  if num = 0 then 0
  else
    let k : Int := (num.log2 : Int) - den.log2 - 53
    let scaled (p : Int) : Nat × Nat := (num <<< (-p).toNat, den <<< p.toNat)
    let k' := if (scaled k).2 <<< 53 ≤ (scaled k).1 then k + 1 else k
    let p := if k' < -1074 then -1074 else k'
    min infinite ((p + 1074).toNat <<< 52 + roundHalfEven (scaled p).1 (scaled p).2)

/-! ## Order -/

/-- The IEEE total order: negative NaNs, negative numbers, the two zeros, positive numbers,
positive NaNs. -/
def rank (x : Binary64) : Int :=
  if x.isNegative then -1 - (x.magnitude : Int) else x.magnitude

def compareTotal (x y : Binary64) : Ordering :=
  compare x.rank y.rank

/-- Equality of numbers: a NaN equals nothing and the two zeros are equal. -/
def sameNumber (x y : Binary64) : Bool :=
  !x.isNaN && (x == y || (x.magnitude == 0 && y.magnitude == 0))

/-! ## Remainder and rounding to whole numbers -/

/-- The remainder of the division of finite `x` by finite `y`, with the sign of `x`; it is always
exact. -/
def remainder (x y : Binary64) : Binary64 :=
  if x.isFinite && y.isFinite && y.magnitude != 0 then
    let (a, b) := quotient x.magnitude
    let (c, d) := quotient y.magnitude
    ofMagnitude x.isNegative (nearest ((a * d) % (c * b)) (b * d))
  else if x.isFinite && !y.isNaN && y.magnitude != 0 then x
  else nan false

/-- The whole number nearest to a finite number, halves away from zero. -/
def toNearestInt (x : Binary64) : Int :=
  let (num, den) := quotient x.magnitude
  let n : Int := roundHalfUp num den
  if x.isNegative then -n else n

end Binary64

end SkyDiscovery
