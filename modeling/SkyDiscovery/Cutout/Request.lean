import SkyDiscovery.Query.CatalogQuery

/-!
# Cutout requests

The region and the axes for which a cutout of a dataset is computed, and the arguments of the
program that computes it.
-/

namespace SkyDiscovery

structure CutoutRequest where
  publisherId : Option String := none
  ra : Option Float := none
  dec : Option Float := none
  /-- The full width and height of the cutout, in degrees. -/
  width : Option Float := none
  height : Option Float := none
  waveLow : Option Float := none
  waveHigh : Option Float := none
  /-- The time bounds as Modified Julian Dates. -/
  timeLow : Option Float := none
  timeHigh : Option Float := none
  polarization : Option String := none
  deriving Inhabited

namespace CutoutRequest

/-- The cutout of what a query asks for. -/
def ofQuery (q : CatalogQuery) : CutoutRequest where
  ra := q.region.map fun r => r.center.lon
  dec := q.region.map fun r => r.center.lat
  width := q.region.map fun r => 2.0 * r.halfLon
  height := q.region.map fun r => 2.0 * r.halfLat
  waveLow := q.band.bind Interval.low
  waveHigh := q.band.bind Interval.high
  timeLow := q.time.bind Interval.low
  timeHigh := q.time.bind Interval.high
  polarization := q.polarization

/-- The request for one dataset. -/
def forDataset (r : CutoutRequest) (publisherId : String) : CutoutRequest :=
  { r with publisherId := some publisherId }

/-- The argument `--name=value`, if there is a value. -/
def argument (name : String) (value : Option String) : List String :=
  value.toList.map fun v => "--" ++ name ++ "=" ++ v

def numberArgument (name : String) (value : Option Float) : List String :=
  argument name (value.map plainText)

/-- The arguments of the program for one file. -/
def arguments (r : CutoutRequest) (stagingDir : Option String) (path : String) : List String :=
  ["--metadata"] ++ argument "pubdid" r.publisherId ++
    numberArgument "ra" r.ra ++ numberArgument "dec" r.dec ++
    numberArgument "width" r.width ++ numberArgument "height" r.height ++
    numberArgument "wavelo" r.waveLow ++ numberArgument "wavehi" r.waveHigh ++
    numberArgument "timelo" r.timeLow ++ numberArgument "timehi" r.timeHigh ++
    argument "polstates" r.polarization ++ argument "dir" stagingDir ++ [path]

end CutoutRequest

end SkyDiscovery
