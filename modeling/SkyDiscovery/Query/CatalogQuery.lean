import SkyDiscovery.Context
import SkyDiscovery.Query.Interval
import SkyDiscovery.Query.Region

/-!
# Catalog queries

The query that a request puts to the catalog.  Each axis of the protocol gives at most one
constraint, and the constraints are joined in the order of the axes.  Whatever is wrong with the
request shows here, before the catalog is asked.
-/

namespace SkyDiscovery

inductive ConstraintKind where
  | spatial
  | spectral
  | temporal
  | polarization
  | resolution
  | identifier
  | collection
  | calibration
  | datasetShape
  deriving DecidableEq, Repr

structure Constraint where
  kind : ConstraintKind
  /-- The parameter that the constraint comes from. -/
  parameter : String
  condition : Conjunction

def Constraint.text (c : Constraint) : String :=
  Conjunction.text c.condition

structure CatalogQuery where
  table : String
  constraints : List Constraint
  /-- The most records of the response; with none, only its fields are asked for. -/
  recordCap : Nat
  region : Option (Region Float)
  band : Option (Interval Float)
  /-- The time interval as Modified Julian Dates. -/
  time : Option (Interval Float)
  /-- The polarization states as they were asked for. -/
  polarization : Option String

namespace CatalogQuery

def isMetadataOnly (q : CatalogQuery) : Bool :=
  q.recordCap == 0

/-- The conjunction of all constraints. -/
def condition (q : CatalogQuery) : Conjunction :=
  q.constraints.flatMap Constraint.condition

/-- The condition of the query, if there is any. -/
def whereText? (q : CatalogQuery) : Option String :=
  if q.constraints.isEmpty then none else some (" AND ".intercalate (q.constraints.map Constraint.text))

/-- The text of the query.  A query for no records has a condition that no row meets. -/
def text (q : CatalogQuery) : String :=
  let start := "SELECT * FROM " ++ q.table
  if q.recordCap = 0 then start ++ " WHERE (1 = 0)"
  else
    match q.whereText? with
    | none => start
    | some w => start ++ " WHERE " ++ w

/-! ## Limits and regions -/

/-- The smaller of the limit that the client asks for and that of the service. -/
def recordLimit (s : ParameterSet) (c : Context) : Except Failure Nat :=
  match s.integer? "MAXREC" with
  | none => .ok c.maxRecords
  | some n =>
    if n < 0 then .error (.invalid "MAXREC" "must not be negative")
    else .ok (min n.toNat c.maxRecords)

/-- The number at an index of a list parameter. -/
def numberAt (parameter : String) (list : RangeList) (index : Nat) : Except Failure Float :=
  match list.floatAt index with
  | .ok x => requireFinite parameter x
  | .error f => .error (.rangeList f.message)

/-- The frame that a property of a position names: by `frame=` and the name, or by the name alone. -/
def frameOfProperty (property : String × String) : Except Failure Frame :=
  let (key, value) := property
  Frame.supportedOfName (if Text.sameIgnoringCase key "frame" then value else key)

/-- The frame of a position; every property must name one that can be searched. -/
def frameOf (properties : List (String × String)) : Except Failure Frame :=
  properties.foldlM (fun _ property => frameOfProperty property) .standard

/-- The center that a request names, if it names one. -/
def center? (p : Protocol) (s : ParameterSet) : Except Failure (Option (Position Float × Frame)) :=
  match s.ranges? "POS" with
  | some pos => do
    let frame ← frameOf pos.properties
    let lon ← numberAt "POS" pos 0
    let lat ← numberAt "POS" pos 1
    return some (⟨lon, lat⟩, frame)
  | none =>
    if p = .cone then
      match s.float? "RA", s.float? "DEC" with
      | some ra, some dec => .ok (some (⟨ra, dec⟩, .standard))
      | some _, none => .error (.missing "DEC")
      | none, some _ => .error (.missing "RA")
      | none, none => if s.isSet "SR" then .error (.missing "RA") else .ok none
    else .ok none

/-- The half-widths of the search; one number serves for both. -/
def halfWidths (s : ParameterSet) : Except Failure (Float × Float) :=
  match s.ranges? "SIZE" with
  | some size => do
    let w ← numberAt "SIZE" size 0
    let h ← if 1 < size.size then numberAt "SIZE" size 1 else .ok w
    return (w, h)
  | none =>
    match s.float? "SR" with
    | some r => .ok (r, r)
    | none => .ok (0.1, 0.1)

def regionFailure : RegionFault Float → Failure
  | .latitude lat => .invalid "POS" ("latitude " ++ plainText lat ++ " is outside [-90, 90]")
  | .negativeSize => .invalid "SIZE" "search size must not be negative"

/-- The region of a request. -/
def region? (p : Protocol) (s : ParameterSet) : Except Failure (Option (Region Float)) := do
  match ← center? p s with
  | none => return none
  | some (center, frame) =>
    (Region.checkCenter center).mapError regionFailure
    let (halfLon, halfLat) ← halfWidths s
    (Region.ofSize center halfLon halfLat frame (p != .cone)).mapError regionFailure

/-! ## Constraints -/

/-- The columns of a position. -/
def positionColumns (p : Protocol) (t : TableMapping) : String × String :=
  if p = .cone then (t.column "ra", t.column "dec") else (t.column "s_ra", t.column "s_dec")

/-- A position in the coarse box. -/
def spatial (p : Protocol) (t : TableMapping) (r : Region Float) : Constraint :=
  let box := r.coarseBox
  let (lon, lat) := positionColumns p t
  let latFactor := Factor.only (.between lat box.latMin box.latMax)
  let lonFactor :=
    Factor.group (box.lonRanges.map fun (low, high) => [.test (.between lon low high)])
  ⟨.spatial, "POS", if box.constrainsLon then [lonFactor, latFactor] else [latFactor]⟩

def overlapping (kind : ConstraintKind) (parameter lowColumn highColumn : String)
    (is : List (Interval Float)) : Option Constraint :=
  (Interval.anyOverlap? lowColumn highColumn is).map fun c => ⟨kind, parameter, c⟩

/-- The states that a polarization parameter names, four at most. -/
def polarizationStates (raw : String) (list : Option RangeList) : List String :=
  if Text.sameIgnoringCase raw "stokes" then ["I", "Q", "U", "V"]
  else
    match list with
    | none => []
    | some list =>
      ((list.ranges.filterMap Range.value?).map fun v => String.ofList v.write).take 4

def polarizationConstraint (t : TableMapping) (s : ParameterSet) : Option Constraint :=
  let column := t.column "pol_states"
  (s.text? "POL").bind fun raw =>
    if Text.sameIgnoringCase raw "any" then
      some ⟨.polarization, "POL", [.only (.isNotNull column)]⟩
    else
      match polarizationStates raw (s.ranges? "POL") with
      | [] => none
      | states => some ⟨.polarization, "POL", [.containsAny column states]⟩

/-- A column of at least the value asked for, or without a value. -/
def minimum (t : TableMapping) (s : ParameterSet) (parameter canonical : String) :
    Option Constraint :=
  (s.float? parameter).map fun x =>
    let column := t.column canonical
    ⟨.resolution, parameter, [.orNull (.atLeast column x) column]⟩

/-- The key of a dataset in the catalog: the text after the last colon of its identifier. -/
def datasetKey (id : String) : String :=
  String.ofList (Text.afterLast ':' id.toList)

def identifier (t : TableMapping) (s : ParameterSet) : Option Constraint :=
  (s.text? "PubDID").map fun id =>
    ⟨.identifier, "PubDID", [.only (.equalsText (t.column "id") (datasetKey id))]⟩

/-- The names between commas. -/
def collectionNames (raw : String) : List String :=
  (Text.items (· == ',') raw.toList).map String.ofList

def collection (t : TableMapping) (s : ParameterSet) : Option Constraint :=
  (s.text? "Collection").bind fun raw =>
    if Text.sameIgnoringCase raw "all" then none
    else
      match collectionNames raw with
      | [] => none
      | names => some ⟨.collection, "Collection", [.containsAny (t.column "obs_collection") names]⟩

/-- The words by which a column shows that a level of calibration is reached. -/
def calibrationWords (level : String) : List String :=
  if Text.sameIgnoringCase level "relative" then ["relative", "absolute"]
  else if Text.sameIgnoringCase level "absolute" then ["absolute"]
  else []

def calibration (t : TableMapping) (s : ParameterSet) (parameter : String) (a : Axis) :
    Option Constraint :=
  (s.text? parameter).bind fun level =>
    a.calibrationColumn?.bind fun canonical =>
      match calibrationWords level with
      | [] => none
      | words =>
        let tests := words.map fun w =>
          [Factor.test (.like (t.column canonical) ("%" ++ w ++ "%"))]
        some ⟨.calibration, parameter, [.group tests]⟩

/-- An image has two axes and a cube at least three. -/
def datasetShape (t : TableMapping) (s : ParameterSet) : Option Constraint :=
  let column := t.column "im_naxes"
  (s.text? "TYPE").bind fun shape =>
    if Text.sameIgnoringCase shape "image" then
      some ⟨.datasetShape, "TYPE", [.only (.equalsNumber column 2.0)]⟩
    else if Text.sameIgnoringCase shape "cube" then
      some ⟨.datasetShape, "TYPE", [.only (.atLeast column 3.0)]⟩
    else none

/-- What a request asks for, read once for all axes. -/
structure Wishes where
  region : Option (Region Float)
  band : List (Interval Float)
  time : List (Interval Float)

/-- The constraint of one axis. -/
def constraint? (p : Protocol) (t : TableMapping) (s : ParameterSet) (w : Wishes) :
    Axis → Option Constraint
  | .spatial => w.region.map (spatial p t)
  | .spectral => overlapping .spectral "BAND" (t.column "em_min") (t.column "em_max") w.band
  | .temporal => overlapping .temporal "TIME" (t.column "t_min") (t.column "t_max") w.time
  | .polarization => polarizationConstraint t s
  | .spatialResolution => minimum t s "SPATRES" "s_resolution"
  | .spectralResolution => minimum t s "SPECRES" "em_resolution"
  | .resolvingPower => minimum t s "SPECRP" "em_res_power"
  | .identifier => identifier t s
  | .collection => collection t s
  | .astrometricCalibration => calibration t s "ASTCalib" .astrometricCalibration
  | .fluxCalibration => calibration t s "FluxCalib" .fluxCalibration
  | .wavelengthCalibration => calibration t s "WaveCalib" .wavelengthCalibration
  | .datasetShape => datasetShape t s

/-! ## Compilation -/

/-- The intervals of a parameter, for a protocol with its axis. -/
def intervals (p : Protocol) (a : Axis) (s : ParameterSet) (parameter : String) :
    Except Failure (List (Interval Float)) :=
  if p.supports a then Interval.ofParameter s parameter else .ok []

def wishes (p : Protocol) (s : ParameterSet) : Except Failure Wishes := do
  let region ← region? p s
  let band ← intervals p .spectral s "BAND"
  let time ← intervals p .temporal s "TIME"
  return ⟨region, band, time⟩

/-- The query of a request. -/
def compile (p : Protocol) (t : TableMapping) (c : Context) (s : ParameterSet) :
    Except Failure CatalogQuery := do
  let table ← c.requireTable
  let cap ← recordLimit s c
  let w ← wishes p s
  return {
    table := table
    constraints := p.axes.filterMap (constraint? p t s w)
    recordCap := cap
    region := w.region
    band := w.band.head?
    time := w.time.head?
    polarization := s.text? "POL"
  }

end CatalogQuery

end SkyDiscovery
