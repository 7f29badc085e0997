import SkyDiscovery.Proofs.Parameter.Kinds
import SkyDiscovery.Proofs.Query.Sound

/-!
# Constraints along an axis with intervals

A bandpass or a time is asked for by ranges.  The bounded ones become intervals, whose bounds are
checked to be finite, and the constraint along the axis is made of these intervals.

* `Interval.checked_of_mapM_check`: what is known of the intervals of a request.
* `CatalogQuery.mem_constraints_iff`: a parameter has the constraint of its axis and no other.
* `CatalogQuery.declared_of_ranges?`: the lists along an axis hold numbers or dates only.
* `CatalogQuery.exists_bounded_of_wishes`: the constraint along an axis with intervals.
-/

namespace SkyDiscovery

/-! ## Intervals -/

namespace Interval

variable {lowColumn highColumn : String}

/-- There is a bound, and all bounds are finite. -/
structure Checked (i : Interval Float) : Prop where
  bounds_ne_nil : i.bounds ≠ []
  finite : ∀ x ∈ i.bounds, x.isFinite

theorem isFinite_of_requireFinite {parameter : String} {x y : Float}
    (h : requireFinite parameter x = .ok y) : x.isFinite := by
  unfold requireFinite at h
  split at h
  · assumption
  · cases h

theorem checked_of_check {parameter : String} {r : Range} {i : Interval Float}
    (h : check parameter r = .ok i) : i = ofRange Binary64.toFloat r ∧ i.Checked := by
  unfold check at h
  dsimp only at h
  split at h
  · cases h
  · next hbounds =>
    obtain ⟨xs, hfinite, h⟩ := exists_of_bind h
    cases h
    exact ⟨rfl, by simpa using hbounds,
      forall_of_mapM (fun _ _ => isFinite_of_requireFinite) hfinite⟩

theorem checked_of_mapM_check {parameter : String} {rs : List Range} {is : List (Interval Float)}
    (h : rs.mapM (check parameter) = .ok is) :
    is = rs.map (ofRange Binary64.toFloat) ∧ ∀ i ∈ is, i.Checked := by
  induction rs generalizing is with
  | nil =>
    cases h
    exact ⟨rfl, List.forall_mem_nil _⟩
  | cons r rs ih =>
    rw [List.mapM_cons] at h
    obtain ⟨i, hi, h⟩ := exists_of_bind h
    obtain ⟨js, hjs, h⟩ := exists_of_bind h
    cases h
    obtain ⟨rfl, hchecked⟩ := checked_of_check hi
    obtain ⟨rfl, hall⟩ := ih hjs
    exact ⟨rfl, List.forall_mem_cons.2 ⟨hchecked, hall⟩⟩

theorem overlap_ne_nil {i : Interval Float} (h : i.bounds ≠ []) :
    overlap lowColumn highColumn i ≠ [] := by
  intro hnil
  obtain ⟨hhigh, hlow⟩ := List.append_eq_nil_iff.1 hnil
  exact h (List.append_eq_nil_iff.2 ⟨List.map_eq_nil_iff.1 hlow, List.map_eq_nil_iff.1 hhigh⟩)

/-- Every checked interval has its part in the condition. -/
theorem filter_overlap {is : List (Interval Float)} (h : ∀ i ∈ is, i.Checked) :
    ((is.map (overlap lowColumn highColumn)).filter fun c => !c.isEmpty) =
      is.map (overlap lowColumn highColumn) := by
  refine List.filter_eq_self.2 fun c hc => ?_
  obtain ⟨i, hi, rfl⟩ := List.mem_map.1 hc
  simpa using overlap_ne_nil (h i hi).bounds_ne_nil

end Interval

/-! ## Constraints of a parameter -/

/-- The parameter from which the constraint of an axis comes. -/
def Axis.parameter : Axis → String
  | spatial => "POS"
  | spectral => "BAND"
  | temporal => "TIME"
  | polarization => "POL"
  | spatialResolution => "SPATRES"
  | spectralResolution => "SPECRES"
  | resolvingPower => "SPECRP"
  | identifier => "PubDID"
  | collection => "Collection"
  | astrometricCalibration => "ASTCalib"
  | fluxCalibration => "FluxCalib"
  | wavelengthCalibration => "WaveCalib"
  | datasetShape => "TYPE"

theorem Axis.parameter_injective {a b : Axis} (h : a.parameter = b.parameter) : a = b := by
  revert h
  cases a <;> cases b <;> decide

namespace CatalogQuery

variable {p : Protocol} {t : TableMapping} {c : Context} {s : ParameterSet} {q : CatalogQuery}

theorem parameter_of_calibration {parameter : String} {a : Axis} {k : Constraint}
    (h : calibration t s parameter a = some k) : k.parameter = parameter := by
  obtain ⟨level, -, h⟩ := Option.bind_eq_some_iff.1 h
  obtain ⟨canonical, -, h⟩ := Option.bind_eq_some_iff.1 h
  split at h
  · cases h
  · cases h
    rfl

theorem parameter_of_constraint? {w : Wishes} {a : Axis} {k : Constraint}
    (h : constraint? p t s w a = some k) : k.parameter = a.parameter := by
  cases a with
  | spatial | spectral | temporal | spatialResolution | spectralResolution | resolvingPower
  | identifier =>
    obtain ⟨x, -, rfl⟩ := Option.map_eq_some_iff.1 h
    rfl
  | polarization =>
    obtain ⟨raw, -, h⟩ := Option.bind_eq_some_iff.1 h
    split at h
    · cases h
      rfl
    · split at h
      · cases h
      · cases h
        rfl
  | collection =>
    obtain ⟨raw, -, h⟩ := Option.bind_eq_some_iff.1 h
    split at h
    · cases h
    · split at h
      · cases h
      · cases h
        rfl
  | astrometricCalibration | fluxCalibration | wavelengthCalibration =>
    exact parameter_of_calibration h
  | datasetShape =>
    obtain ⟨shape, -, h⟩ := Option.bind_eq_some_iff.1 h
    split at h
    · cases h
      rfl
    · split at h
      · cases h
        rfl
      · cases h

/-- The constraint that a query has from the parameter of an axis. -/
theorem mem_constraints_iff (hcompile : compile p t c s = .ok q) {w : Wishes}
    (hw : wishes p s = .ok w) (a : Axis) (k : Constraint) :
    k ∈ q.constraints ∧ k.parameter = a.parameter ↔
      a ∈ p.axes ∧ constraint? p t s w a = some k := by
  obtain ⟨w', hw', -, -, hconstraints⟩ := compile_parts hcompile
  cases hw.symm.trans hw'
  rw [hconstraints, List.mem_filterMap]
  constructor
  · rintro ⟨⟨b, hb, hk⟩, hparameter⟩
    obtain rfl : b = a :=
      Axis.parameter_injective ((parameter_of_constraint? hk).symm.trans hparameter)
    exact ⟨hb, hk⟩
  · rintro ⟨ha, hk⟩
    exact ⟨⟨a, ha, hk⟩, parameter_of_constraint? hk⟩

end CatalogQuery

/-! ## Axes with intervals -/

/-- An axis along which a dataset has an interval of its own. -/
inductive IntervalAxis where
  | spectral
  | temporal

namespace IntervalAxis

def axis : IntervalAxis → Axis
  | spectral => .spectral
  | temporal => .temporal

def parameter (x : IntervalAxis) : String :=
  x.axis.parameter

/-- The type of the ranges that are asked for. -/
def type : IntervalAxis → ValueType
  | spectral => .numeric
  | temporal => .date

def lowColumn : IntervalAxis → String
  | spectral => "em_min"
  | temporal => "t_min"

def highColumn : IntervalAxis → String
  | spectral => "em_max"
  | temporal => "t_max"

theorem mem_axes_iff (x : IntervalAxis) (p : Protocol) :
    x.axis ∈ p.axes ↔ p.hasAccess = true := by
  cases x <;> cases p <;> decide

end IntervalAxis

namespace CatalogQuery

variable {p : Protocol} {t : TableMapping} {s : ParameterSet}

theorem declarationOf_parameter {x : IntervalAxis} (hp : p.hasAccess = true) {name : String}
    (hname : ParameterSet.key name = ParameterSet.key x.parameter) :
    (ParameterSet.declarationOf p name).kind = .ranges (some x.type) true := by
  have hdeclared :
      (ParameterSet.declarationOf p x.parameter).kind = .ranges (some x.type) true := by
    cases p with
    | cone => cases hp
    | image | spectrum => cases x <;> decide +kernel
  rw [← ParameterSet.declarationOf_congr hname.symm (by simp [hdeclared]), hdeclared]

/-- The ranges of an axis come of its own declaration, in a protocol that has the axis. -/
theorem declared_of_ranges? {pairs : List (String × String)}
    (hread : ParameterSet.read p pairs = .ok s) {x : IntervalAxis}
    {list : RangeList} (hlist : s.ranges? x.parameter = some list) :
    p.hasAccess = true ∧ list.Readable ∧ list.ordered = true ∧ list.declared = some x.type := by
  have hname : ParameterSet.key x.parameter = Text.lower x.parameter := by
    cases x <;> decide +kernel
  obtain ⟨declared, ordered, hkind, hreadable, hordered, hdeclared⟩ :=
    (ParameterSet.byKind_of_read hread).ranges? hname hlist
  have hp : p.hasAccess = true := by
    cases p with
    | image | spectrum => rfl
    | cone =>
      have htext : (ParameterSet.declarationOf .cone x.parameter).kind = .text := by
        cases x <;> decide +kernel
      cases htext.symm.trans hkind
  cases (declarationOf_parameter hp rfl).symm.trans hkind
  exact ⟨hp, hreadable, hordered, hdeclared⟩

/-- The intervals along an axis. -/
def Wishes.along (w : Wishes) : IntervalAxis → List (Interval Float)
  | .spectral => w.band
  | .temporal => w.time

theorem intervals_of_wishes {w : Wishes} (hw : wishes p s = .ok w) (x : IntervalAxis) :
    intervals p x.axis s x.parameter = .ok (w.along x) := by
  obtain ⟨-, hband, htime⟩ := wishes_parts hw
  cases x with
  | spectral => exact hband
  | temporal => exact htime

theorem eq_map_of_intervals {x : IntervalAxis} (hp : p.hasAccess = true) {list : RangeList}
    (hlist : s.ranges? x.parameter = some list) {is : List (Interval Float)}
    (h : intervals p x.axis s x.parameter = .ok is) :
    is = (list.ranges.filter (· ≠ .any)).map (.ofRange Binary64.toFloat) ∧
      ∀ i ∈ is, i.Checked := by
  have hsupports : p.supports x.axis = true := by
    rw [Protocol.supports, List.contains_iff_mem]
    exact (x.mem_axes_iff p).2 hp
  rw [intervals, if_pos hsupports, Interval.ofParameter, hlist] at h
  exact Interval.checked_of_mapM_check h

/-- The constraint along an axis is made of the bounded ranges that are asked for. -/
theorem exists_bounded_of_wishes {w : Wishes} (hw : wishes p s = .ok w) (x : IntervalAxis)
    (hp : p.hasAccess = true) {list : RangeList} (hlist : s.ranges? x.parameter = some list) :
    ∃ kind is, constraint? p t s w x.axis = overlapping kind x.parameter (t.column x.lowColumn)
        (t.column x.highColumn) is ∧
      is = (list.ranges.filter (· ≠ .any)).map (.ofRange Binary64.toFloat) ∧
      ∀ i ∈ is, i.Checked := by
  have hmap := eq_map_of_intervals hp hlist (intervals_of_wishes hw x)
  cases x with
  | spectral => exact ⟨.spectral, w.band, rfl, hmap⟩
  | temporal => exact ⟨.temporal, w.time, rfl, hmap⟩

end CatalogQuery

end SkyDiscovery
