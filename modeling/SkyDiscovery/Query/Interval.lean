import SkyDiscovery.Parameter.ParameterSet
import SkyDiscovery.Query.Condition

/-!
# Intervals

The ranges of a bandpass or time parameter as intervals of numbers, dates as Modified Julian Dates.
A dataset has an interval of its own in two columns; it matches an interval that it overlaps, and a
bound that it does not have never excludes it.
-/

namespace SkyDiscovery

/-- An interval of numbers; a missing bound is open. -/
structure Interval (α : Type) where
  low : Option α
  high : Option α

/-- The number, unless it is infinite or a NaN. -/
def requireFinite (parameter : String) (x : Float) : Except Failure Float :=
  if x.isFinite then .ok x
  else .error (.invalid parameter (plainText x ++ " is not a finite number"))

namespace Interval

def ofRange {α : Type} [Scalar α] (ofNumber : Binary64 → α) (r : Range) : Interval α :=
  let (low, high) := r.amounts ofNumber
  ⟨low, high⟩

def bounds {α : Type} (i : Interval α) : List α :=
  i.low.toList ++ i.high.toList

/-- The interval of a range with at least one bound, all of them finite numbers. -/
def check (parameter : String) (r : Range) : Except Failure (Interval Float) :=
  let i := ofRange Binary64.toFloat r
  if i.bounds.isEmpty then .error (.invalid parameter ("'" ++ r.text ++ "' is not a numeric range"))
  else do
    let _ ← i.bounds.mapM (requireFinite parameter)
    return i

/-- The intervals of a parameter; unbounded ranges give none. -/
def ofParameter (s : ParameterSet) (parameter : String) : Except Failure (List (Interval Float)) :=
  match s.ranges? parameter with
  | none => .ok []
  | some list => (list.ranges.filter (· ≠ .any)).mapM (check parameter)

/-- The factors by which a dataset with an interval in two columns overlaps this one. -/
def overlap (lowColumn highColumn : String) (i : Interval Float) : Conjunction :=
  let below := i.high.toList.map fun x => Factor.orNull (.atMost lowColumn x) lowColumn
  let above := i.low.toList.map fun x => Factor.orNull (.atLeast highColumn x) highColumn
  below ++ above

/-- The condition to overlap one of the intervals; none without a bounded interval. -/
def anyOverlap? (lowColumn highColumn : String) (is : List (Interval Float)) :
    Option Conjunction :=
  match (is.map (overlap lowColumn highColumn)).filter fun c => !c.isEmpty with
  | [] => none
  | [c] => some c
  | cs => some [.group (cs.map fun c => [.group [c]])]

end Interval

end SkyDiscovery
