import SkyDiscovery.Number.Shortest

/-!
# Comparison within a tolerance

Two numbers are compared by the size of their difference, and a pair that differs is reported with
both numbers.
-/

namespace SkyDiscovery

/-- The tolerance where none is given. -/
def defaultTolerance : Float := 1e-9

/-- What to say of two numbers that differ by more than the tolerance; a NaN differs from
everything. -/
def mismatch? (left right tolerance : Float) : Option String :=
  if (left - right).abs ≤ tolerance then none
  else
    some ("values differ by more than " ++ plainText tolerance ++ ": " ++ plainText left ++
      " vs " ++ plainText right)

end SkyDiscovery
