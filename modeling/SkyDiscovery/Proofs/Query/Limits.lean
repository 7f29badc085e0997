import SkyDiscovery.Proofs.Query.Ordered
import SkyDiscovery.Proofs.Query.Search

/-!
# Numbers within their limits

The numbers of a request come in several ways: as values of declared parameters, as elements of
lists, which may be texts or infinities, and as dates.  Each way has its check, and a request that
passes all of them gives a query with finite numbers only, in the ranges that they need.

* `CatalogQuery.center?_sound`, `CatalogQuery.halfWidths_sound`, `CatalogQuery.region?_sound`: the
  numbers of a search region.
* `CatalogQuery.within_limits_of_compile`: all numbers of a compiled query.
-/

namespace SkyDiscovery

namespace Region

/-- The numbers of a region are finite, its sizes are not negative, and its center has a
latitude. -/
structure InLimits (r : Region Float) : Prop where
  halfLon_finite : r.halfLon.isFinite
  halfLat_finite : r.halfLat.isFinite
  halfLon_nonneg : 0.0 ≤ r.halfLon
  halfLat_nonneg : 0.0 ≤ r.halfLat
  lat_finite : r.center.lat.isFinite
  lat_ge : -90.0 ≤ r.center.lat
  lat_le : r.center.lat ≤ 90.0

theorem lat_of_checkCenter {center : Position Float} (h : checkCenter center = .ok ()) :
    -90.0 ≤ center.lat ∧ center.lat ≤ 90.0 := by
  unfold checkCenter at h
  split at h
  · assumption
  · cases h

theorem eq_of_ofSize {center : Position Float} {halfLon halfLat : Float} {frame : Frame}
    {footprint : Bool} {r : Region Float} (hlon : halfLon.isFinite) (hlat : halfLat.isFinite)
    (h : ofSize center halfLon halfLat frame footprint = .ok (some r)) :
    0.0 ≤ halfLon ∧ 0.0 ≤ halfLat ∧
      r = ⟨⟨Longitude.normalize center.lon, center.lat⟩, halfLon, halfLat, frame, footprint⟩ := by
  have hzero : (0.0 : Float).isFinite := by decide +kernel
  unfold ofSize at h
  split at h
  · cases h
  · next hsign =>
    rw [not_or, Float64.not_lt_iff hlon hzero, Float64.not_lt_iff hlat hzero] at hsign
    split at h
    · cases h
    · cases h
      exact ⟨hsign.1, hsign.2, rfl⟩

end Region

namespace CatalogQuery

variable {p : Protocol} {t : TableMapping} {c : Context} {s : ParameterSet} {q : CatalogQuery}
  {w : Wishes} {pairs : List (String × String)}

/-! ## Regions -/

/-- Where a request has its center: in the first two elements of a position or, in a cone search
without one, in two parameters. -/
inductive CenterFrom (p : Protocol) (s : ParameterSet) : Position Float → Prop where
  | position {pos : RangeList} {lon lat : Float} : s.ranges? "POS" = some pos →
      pos.floatAt 0 = .ok lon → pos.floatAt 1 = .ok lat → CenterFrom p s ⟨lon, lat⟩
  | coordinates {ra dec : Float} : p = .cone → s.ranges? "POS" = none →
      s.float? "RA" = some ra → s.float? "DEC" = some dec → CenterFrom p s ⟨ra, dec⟩

theorem numberAt_sound {parameter : String} {list : RangeList} {index : ℕ} {x : Float}
    (h : numberAt parameter list index = .ok x) : list.floatAt index = .ok x ∧ x.isFinite := by
  unfold numberAt at h
  split at h
  · next y hy =>
    have hfinite : y.isFinite := Interval.isFinite_of_requireFinite h
    rw [requireFinite, if_pos hfinite] at h
    cases h
    exact ⟨hy, hfinite⟩
  · cases h

/-- The parameters of which a query takes a single number. -/
def numberParameters : List String :=
  ["RA", "DEC", "SR", "SPATRES", "SPECRES", "SPECRP"]

/-- No protocol declares one of these parameters as a whole number. -/
theorem isFinite_of_float? (hread : ParameterSet.read p pairs = .ok s) {name : String}
    (hname : name ∈ numberParameters) {x : Float} (hx : s.float? name = some x) : x.isFinite := by
  have hkey : ∀ name ∈ numberParameters, ParameterSet.key name = Text.lower name := by
    decide +kernel
  have hkind : ∀ name ∈ numberParameters,
      (ParameterSet.declarationOf p name).kind ≠ .integer := by
    cases p <;> decide +kernel
  exact (ParameterSet.byKind_of_read hread).float? (hkey name hname) (hkind name hname) hx

theorem center?_sound (hread : ParameterSet.read p pairs = .ok s) {center : Position Float}
    {frame : Frame} (h : center? p s = .ok (some (center, frame))) :
    CenterFrom p s center ∧ center.lon.isFinite ∧ center.lat.isFinite := by
  unfold center? at h
  split at h
  · next pos hpos =>
    obtain ⟨frame', -, h⟩ := exists_of_bind h
    obtain ⟨lon, hlon, h⟩ := exists_of_bind h
    obtain ⟨lat, hlat, h⟩ := exists_of_bind h
    cases h
    obtain ⟨hlon, hlonFinite⟩ := numberAt_sound hlon
    obtain ⟨hlat, hlatFinite⟩ := numberAt_sound hlat
    exact ⟨.position hpos hlon hlat, hlonFinite, hlatFinite⟩
  · next hpos =>
    split at h
    · next hp =>
      split at h
      · next ra dec hra hdec =>
        cases h
        exact ⟨.coordinates hp hpos hra hdec, isFinite_of_float? hread (by decide) hra,
          isFinite_of_float? hread (by decide) hdec⟩
      · cases h
      · cases h
      · split at h
        · cases h
        · cases h
    · cases h

theorem halfWidths_sound (hread : ParameterSet.read p pairs = .ok s) {halfLon halfLat : Float}
    (h : halfWidths s = .ok (halfLon, halfLat)) : halfLon.isFinite ∧ halfLat.isFinite := by
  unfold halfWidths at h
  split at h
  · obtain ⟨x, hx, h⟩ := exists_of_bind h
    have hlon := (numberAt_sound hx).2
    split at h
    · obtain ⟨y, hy, h⟩ := exists_of_bind h
      cases h
      exact ⟨hlon, (numberAt_sound hy).2⟩
    · cases h
      exact ⟨hlon, hlon⟩
  · split at h
    · next r hr =>
      cases h
      have hfinite := isFinite_of_float? hread (by decide) hr
      exact ⟨hfinite, hfinite⟩
    · cases h
      exact ⟨by decide +kernel, by decide +kernel⟩

theorem region?_sound (hread : ParameterSet.read p pairs = .ok s) {r : Region Float}
    (h : region? p s = .ok (some r)) :
    r.InLimits ∧ ∃ center, CenterFrom p s center ∧ center.lon.isFinite ∧ center.lat.isFinite ∧
      r.center = ⟨Longitude.normalize center.lon, center.lat⟩ := by
  obtain ⟨found, hfound, h⟩ := exists_of_bind h
  rcases found with _ | ⟨center, frame⟩
  · cases h
  · obtain ⟨_, hcenter, h⟩ := exists_of_bind h
    obtain ⟨⟨halfLon, halfLat⟩, hwidths, h⟩ := exists_of_bind h
    rw [mapError_eq_ok_iff] at hcenter h
    obtain ⟨hfrom, hlon, hlat⟩ := center?_sound hread hfound
    obtain ⟨hlonWidth, hlatWidth⟩ := halfWidths_sound hread hwidths
    obtain ⟨hge, hle⟩ := Region.lat_of_checkCenter hcenter
    obtain ⟨hlonSign, hlatSign, rfl⟩ := Region.eq_of_ofSize hlonWidth hlatWidth h
    exact ⟨⟨hlonWidth, hlatWidth, hlonSign, hlatSign, hlat, hge, hle⟩, center, hfrom, hlon, hlat,
      rfl⟩

/-! ## Thresholds and limits -/

/-- An axis along which a dataset needs at least a value asked for. -/
def IsThreshold (a : Axis) : Prop :=
  a = .spatialResolution ∨ a = .spectralResolution ∨ a = .resolvingPower

theorem minimum_sound (hread : ParameterSet.read p pairs = .ok s) {parameter canonical : String}
    (hname : parameter ∈ numberParameters) {k : Constraint}
    (h : minimum t s parameter canonical = some k) :
    ∃ x, s.float? parameter = some x ∧ x.isFinite ∧
      k.condition = [.orNull (.atLeast (t.column canonical) x) (t.column canonical)] := by
  obtain ⟨x, hx, rfl⟩ := Option.map_eq_some_iff.1 h
  exact ⟨x, hx, isFinite_of_float? hread hname hx, rfl⟩

theorem threshold_sound (hread : ParameterSet.read p pairs = .ok s)
    (hcompile : compile p t c s = .ok q) {a : Axis} (ha : IsThreshold a) {k : Constraint}
    (hk : k ∈ q.constraints) (hparameter : k.parameter = a.parameter) :
    ∃ x column, s.float? a.parameter = some x ∧ x.isFinite ∧
      k.condition = [.orNull (.atLeast column x) column] := by
  obtain ⟨w, hw, -⟩ := compile_parts hcompile
  have hconstraint := ((mem_constraints_iff hcompile hw a k).1 ⟨hk, hparameter⟩).2
  obtain rfl | rfl | rfl := ha
  · obtain ⟨x, hx⟩ := minimum_sound hread (by decide) hconstraint
    exact ⟨x, _, hx⟩
  · obtain ⟨x, hx⟩ := minimum_sound hread (by decide) hconstraint
    exact ⟨x, _, hx⟩
  · obtain ⟨x, hx⟩ := minimum_sound hread (by decide) hconstraint
    exact ⟨x, _, hx⟩

theorem recordLimit_sound (hread : ParameterSet.read p pairs = .ok s) {cap : ℕ}
    (h : recordLimit s c = .ok cap) :
    (s.isSet "MAXREC" = false → cap = c.maxRecords) ∧
      (s.isSet "MAXREC" = true →
        ∃ n, s.integer? "MAXREC" = some n ∧ 0 ≤ n ∧ cap = min n.toNat c.maxRecords) := by
  have hkind : (ParameterSet.declarationOf p "MAXREC").kind = .integer := by
    cases p <;> decide +kernel
  have hkey : ParameterSet.key "MAXREC" = Text.lower "MAXREC" := by decide +kernel
  unfold recordLimit at h
  constructor
  · intro hset
    have hnone : s.integer? "MAXREC" = none := by
      rw [ParameterSet.isSet, Option.isSome_eq_false_iff, Option.isNone_iff_eq_none] at hset
      rw [ParameterSet.integer?, hset, Option.map_none]
    rw [hnone] at h
    exact (Except.ok.inj h).symm
  · intro hset
    obtain ⟨n, hn⟩ := (ParameterSet.byKind_of_read hread).exists_integer hkey hkind hset
    rw [hn] at h
    refine ⟨n, hn, ?_⟩
    dsimp only at h
    split at h
    · cases h
    · next hnonneg => exact ⟨not_lt.1 hnonneg, (Except.ok.inj h).symm⟩

/-! ## Queries -/

/-- A request that is compiled has no infinity and no NaN left, whichever way its numbers came. -/
theorem within_limits_of_compile (hread : ParameterSet.read p pairs = .ok s)
    (hcompile : compile p t c s = .ok q) :
    (∃ w, wishes p s = .ok w ∧ q.band = w.band.head? ∧ q.time = w.time.head? ∧
      q.constraints = p.axes.filterMap (constraint? p t s w) ∧
      ∀ i ∈ w.band ++ w.time, i.Checked) ∧
    (∀ a, IsThreshold a → ∀ k ∈ q.constraints, k.parameter = a.parameter →
      ∃ x column, s.float? a.parameter = some x ∧ x.isFinite ∧
        k.condition = [.orNull (.atLeast column x) column]) ∧
    (∀ r, q.region = some r → r.InLimits ∧ ∃ center, CenterFrom p s center ∧
      center.lon.isFinite ∧ center.lat.isFinite ∧
      r.center = ⟨Longitude.normalize center.lon, center.lat⟩) ∧
    (s.isSet "MAXREC" = false → q.recordCap = c.maxRecords) ∧
    (s.isSet "MAXREC" = true →
      ∃ n, s.integer? "MAXREC" = some n ∧ 0 ≤ n ∧ q.recordCap = min n.toNat c.maxRecords) := by
  obtain ⟨w, hw, -, hcap, hconstraints⟩ := compile_parts hcompile
  obtain ⟨hregion, hband, htime⟩ := searches_of_compile hcompile hw
  refine ⟨⟨w, hw, hband, htime, hconstraints, ?_⟩, ?_, ?_, recordLimit_sound hread hcap⟩
  · intro i hi
    obtain hi | hi := List.mem_append.1 hi
    · exact (along_eq hread hw .spectral).2 i hi
    · exact (along_eq hread hw .temporal).2 i hi
  · intro a ha k hk hparameter
    exact threshold_sound hread hcompile ha hk hparameter
  · intro r hr
    apply region?_sound hread
    rw [(wishes_parts hw).1, ← hregion, hr]

/-- A search with a bandpass, a resolution and a limit. -/
theorem within_limits_of_compile_image :
    ∃ s q r k, ParameterSet.read .image [("POS", "10,-90"), ("SIZE", "1,2"), ("BAND", "/3"),
        ("SPATRES", "4.5"), ("MAXREC", "20")] = .ok s ∧
      compile .image TableConfig.empty.mapping Sample.imageContext s = .ok q ∧
      q.region = some r ∧ r.InLimits ∧ q.recordCap = 20 ∧ k ∈ q.constraints ∧
      k.parameter = "SPATRES" ∧
      (∃ x column, x.isFinite ∧ k.condition = [.orNull (.atLeast column x) column]) ∧
      ∃ i, q.band = some i ∧ i.Checked := by
  have hcompiled : ((ParameterSet.read .image [("POS", "10,-90"), ("SIZE", "1,2"), ("BAND", "/3"),
      ("SPATRES", "4.5"), ("MAXREC", "20")]).toOption.any fun s =>
        (compile .image TableConfig.empty.mapping Sample.imageContext s).toOption.any fun q =>
          q.region.isSome ∧ q.band.isSome ∧ s.isSet "MAXREC" ∧ s.integer? "MAXREC" = some 20 ∧
            ∃ k ∈ q.constraints, k.parameter = "SPATRES") = true := by
    decide +kernel
  obtain ⟨s, hread, hs⟩ := exists_ok_of_any hcompiled
  obtain ⟨q, hcompile, hq⟩ := exists_ok_of_any hs
  obtain ⟨hregion, hband, hset, hinteger, k, hk, hparameter⟩ := of_decide_eq_true hq
  obtain ⟨r, hr⟩ := Option.isSome_iff_exists.1 hregion
  obtain ⟨i, hi⟩ := Option.isSome_iff_exists.1 hband
  obtain ⟨⟨w, -, hhead, -, -, hchecked⟩, hthreshold, hlimits, -, hlimit⟩ :=
    within_limits_of_compile hread hcompile
  obtain ⟨n, hn, -, hcap⟩ := hlimit hset
  cases hinteger.symm.trans hn
  obtain ⟨x, column, -, hx, hcondition⟩ := hthreshold .spatialResolution (.inl rfl) k hk hparameter
  refine ⟨s, q, r, k, hread, hcompile, hr, (hlimits r hr).1, hcap, hk, hparameter,
    ⟨x, column, hx, hcondition⟩, i, hi, ?_⟩
  exact hchecked i (List.mem_append_left _ (List.mem_of_mem_head? (hhead.symm.trans hi)))

end CatalogQuery

end SkyDiscovery
