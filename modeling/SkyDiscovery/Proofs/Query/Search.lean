import SkyDiscovery.Proofs.Failure
import SkyDiscovery.Proofs.Sky.Box
import SkyDiscovery.Query.CatalogQuery
import SkyDiscovery.Query.Refinement

/-!
# Searches around a position

The catalog answers for a coarse box, and refinement keeps the rows within the radius.  Read in
exact arithmetic, a cone search comes to the rows within the radius on the sphere.  A dataset with a
footprint, or within the longer side of an oblong search only, may lie outside the coarse box.

* `regionOver?`: the region of a request, computed in other numbers than doubles.
* `cone_search_exact`: box and refinement together keep the rows within the radius of a cone search.
* `coarseBox_contains_of_accepts`: the rows that the box keeps for refinement.
-/

namespace SkyDiscovery

open Real

/-! ## Regions in exact arithmetic -/

namespace Region

open Position

theorem checkCenter_eq_ok_iff (p : Position ℝ) : checkCenter p = .ok () ↔ |p.lat| ≤ 90 := by
  have hunfold : checkCenter p =
      if -90 ≤ p.lat ∧ p.lat ≤ 90 then .ok () else .error (.latitude p.lat) := by
    norm_num [checkCenter]
  rw [hunfold, abs_le]
  split_ifs with h
  · simp [h]
  · simp [h]

theorem ofSize_eq_ok_iff (center : Position ℝ) (halfLon halfLat : ℝ) (frame : Frame)
    (footprint : Bool) (r : Region ℝ) :
    ofSize center halfLon halfLat frame footprint = .ok (some r) ↔
      0 ≤ halfLon ∧ 0 ≤ halfLat ∧ 1e-6 ≤ |halfLon - 180| ∧
        r = ⟨⟨Longitude.normalize center.lon, center.lat⟩, halfLon, halfLat, frame, footprint⟩ := by
  have hunfold : ofSize center halfLon halfLat frame footprint =
      if halfLon < 0 ∨ halfLat < 0 then .error .negativeSize
      else if |halfLon - 180| < 1e-6 then .ok none
      else .ok (some ⟨⟨Longitude.normalize center.lon, center.lat⟩, halfLon, halfLat, frame,
        footprint⟩) := by
    norm_num [ofSize, Scalar.abs]
  rw [hunfold]
  split_ifs with hsign hsky
  · simp only [false_iff]
    rintro ⟨hlon, hlat, -⟩
    exact hsign.elim hlon.not_gt hlat.not_gt
  · simp only [Except.ok.injEq, reduceCtorEq, false_iff]
    rintro ⟨-, -, hle, -⟩
    exact hle.not_gt hsky
  · rw [not_or, not_lt, not_lt] at hsign
    rw [not_lt] at hsky
    simp [hsign, hsky, eq_comm]

/-- The angle between a region and a dataset is measured on the sphere, wherever the seam is. -/
theorem separation?_eq (r : Region ℝ) {row : Sighting ℝ} {p : Position ℝ}
    (hlon : row.lon = some p.lon) (hlat : row.lat = some p.lat) :
    r.separation? row = some (greatCircle r.center p) := by
  obtain ⟨k, hk⟩ := Longitude.exists_recenter r.center.lon r.center.lon
  obtain ⟨m, hm⟩ := Longitude.exists_recenter r.center.lon p.lon
  simp only [separation?, hlon, hlat, Option.bind_eq_bind, Option.bind_some, Option.pure_def,
    separation_eq]
  congr 1
  refine greatCircle_congr rfl rfl (k := m - k) ?_
  dsimp only
  rw [hk, hm]
  push_cast
  ring

theorem accepts_iff (r : Region ℝ) {row : Sighting ℝ} {p : Position ℝ}
    (hlon : row.lon = some p.lon) (hlat : row.lat = some p.lat) :
    r.accepts row = true ↔ greatCircle r.center p ≤ max r.halfLon r.halfLat + r.halfExtent row := by
  simp only [accepts, r.separation?_eq hlon hlat, decide_eq_true_eq]
  rfl

theorem halfExtent_of_no_footprint {r : Region ℝ} (h : r.footprint = false) (row : Sighting ℝ) :
    r.halfExtent row = 0 := by
  norm_num [halfExtent, h]

theorem coarseBox_eq (r : Region ℝ) :
    r.coarseBox = .around r.center (2 * r.halfLon) (2 * r.halfLat) := by
  norm_num [coarseBox]

end Region

namespace CatalogQuery

/-- The region of a request in the scalars `α`, in which the numbers of the request are read. -/
def regionOver? {α : Type} [Scalar α] (number : Float → α) (p : Protocol) (s : ParameterSet) :
    Except Failure (Option (Region α)) := do
  match ← center? p s with
  | none => return none
  | some (center, frame) =>
    let position : Position α := ⟨number center.lon, number center.lat⟩
    (Region.checkCenter position).mapError fun _ => regionFailure (.latitude center.lat)
    let (halfLon, halfLat) ← halfWidths s
    (Region.ofSize position (number halfLon) (number halfLat) frame (p != .cone)).mapError
      fun _ => regionFailure .negativeSize

/-- In the doubles themselves it is the region that a query is compiled with. -/
theorem regionOver?_id (p : Protocol) (s : ParameterSet) : regionOver? id p s = region? p s := by
  unfold regionOver? region?
  congr 1
  funext found
  rcases found with _ | ⟨center, frame⟩
  · rfl
  · dsimp only [id]
    congr 1
    · unfold Region.checkCenter
      split <;> rfl
    · funext _
      congr 1
      funext sizes
      unfold Region.ofSize
      split
      · rfl
      · split <;> rfl

/-- The region of a request in exact arithmetic. -/
noncomputable def exactRegion? (p : Protocol) (s : ParameterSet) :
    Except Failure (Option (Region ℝ)) :=
  regionOver? Float64.value p s

theorem mapError_eq_ok_iff {ε ε' α : Type} {x : Except ε α} {f : ε → ε'} {a : α} :
    x.mapError f = .ok a ↔ x = .ok a := by
  cases x <;> simp [Except.mapError]

theorem exactRegion?_eq_ok_iff (p : Protocol) (s : ParameterSet) (r : Region ℝ) :
    exactRegion? p s = .ok (some r) ↔ ∃ center frame halfLon halfLat,
      center? p s = .ok (some (center, frame)) ∧ halfWidths s = .ok (halfLon, halfLat) ∧
      |Float64.value center.lat| ≤ 90 ∧ 0 ≤ Float64.value halfLon ∧ 0 ≤ Float64.value halfLat ∧
      1e-6 ≤ |Float64.value halfLon - 180| ∧
      r = ⟨⟨Longitude.normalize (Float64.value center.lon), Float64.value center.lat⟩,
        Float64.value halfLon, Float64.value halfLat, frame, p != .cone⟩ := by
  constructor
  · intro h
    obtain ⟨found, hfound, h⟩ := exists_of_bind h
    rcases found with _ | ⟨center, frame⟩
    · cases h
    · obtain ⟨_, hcheck, h⟩ := exists_of_bind h
      obtain ⟨⟨halfLon, halfLat⟩, hwidths, h⟩ := exists_of_bind h
      have hlat := (Region.checkCenter_eq_ok_iff _).1 (mapError_eq_ok_iff.1 hcheck)
      exact ⟨center, frame, halfLon, halfLat, hfound, hwidths, hlat,
        (Region.ofSize_eq_ok_iff _ _ _ _ _ _).1 (mapError_eq_ok_iff.1 h)⟩
  · rintro ⟨center, frame, halfLon, halfLat, hfound, hwidths, hlat, hsize⟩
    have hcheck := (Region.checkCenter_eq_ok_iff
      ⟨Float64.value center.lon, Float64.value center.lat⟩).2 hlat
    have hregion := (Region.ofSize_eq_ok_iff ⟨Float64.value center.lon, Float64.value center.lat⟩
      (Float64.value halfLon) (Float64.value halfLat) frame (p != .cone) r).2 hsize
    simp only [exactRegion?, regionOver?, hfound, hwidths, bind, Except.bind]
    rw [hcheck]
    exact mapError_eq_ok_iff.2 hregion

/-- A cone search for a center and a radius comes to the rows within the radius: those that lie in
the coarse box and pass refinement are those whose great-circle angle to the center does not exceed
it. -/
theorem cone_search_exact {s : ParameterSet} {center : Position Float} {frame : Frame}
    {radius : Float} (hcenter : center? .cone s = .ok (some (center, frame)))
    (hradius : halfWidths s = .ok (radius, radius))
    (hlat : Float64.value center.lat ∈ Set.Icc (-90) 90) (hnonneg : 0 ≤ Float64.value radius)
    (hsky : 1e-6 ≤ |Float64.value radius - 180|) :
    ∃ region, exactRegion? .cone s = .ok (some region) ∧
      ∀ (row : Sighting ℝ) (p : Position ℝ), row.lon = some p.lon → row.lat = some p.lat →
        p.lon ∈ Set.Ico 0 360 → p.lat ∈ Set.Icc (-90) 90 →
        ((region.coarseBox.latMin ≤ p.lat ∧ p.lat ≤ region.coarseBox.latMax ∧
            ∃ i ∈ region.coarseBox.lonRanges, i.1 ≤ p.lon ∧ p.lon ≤ i.2) ∧
          region.accepts row = true ↔
        Position.greatCircle ⟨Float64.value center.lon, Float64.value center.lat⟩ p ≤
          Float64.value radius) := by
  refine ⟨_, (exactRegion?_eq_ok_iff _ _ _).2 ⟨center, frame, radius, radius, hcenter, hradius,
    abs_le.2 hlat, hnonneg, hnonneg, hsky, rfl⟩, ?_⟩
  intro row p hlonRow hlatRow hplon hplat
  rw [Region.accepts_iff _ hlonRow hlatRow, Region.halfExtent_of_no_footprint rfl, max_self,
    add_zero, Region.coarseBox_eq]
  dsimp only
  -- The center of the region is the one asked for, up to whole turns.
  have hangle : Position.greatCircle ⟨Longitude.normalize (Float64.value center.lon),
        Float64.value center.lat⟩ p =
      Position.greatCircle ⟨Float64.value center.lon, Float64.value center.lat⟩ p := by
    obtain ⟨k, hk⟩ := Longitude.exists_normalize (Float64.value center.lon)
    refine Position.greatCircle_congr rfl rfl (k := -k) ?_
    dsimp only
    rw [hk]
    push_cast
    ring
  rw [← hangle]
  refine ⟨fun h => h.2, fun hle => ⟨?_, hle⟩⟩
  have hbox := SkyBox.contains_around
    (c := ⟨Longitude.normalize (Float64.value center.lon), Float64.value center.lat⟩)
    (a := 2 * Float64.value radius) (b := 2 * Float64.value radius) (Longitude.normalize_mem _)
    (abs_le.2 hlat) hplon (abs_le.2 hplat) (by linarith) (by linarith)
  rwa [SkyBox.contains_iff, Longitude.normalize_of_mem hplon] at hbox

/-- The circle of five degrees around (355, 60) reaches just beyond (5, 60), on the other side of
the seam. -/
theorem greatCircle_across_seam : Position.greatCircle ⟨355, 60⟩ ⟨5, 60⟩ ≤ 5 := by
  have hturn : (2 * 5 : ℝ) = 5 - 355 + 360 * (1 : ℤ) := by norm_num
  have hcos := Position.cos_greatCircle_of_turn (p := ⟨355, 60⟩) (q := ⟨5, 60⟩) hturn
  have hthird : (60 : ℝ) * (π / 180) = π / 3 := by ring
  rw [hthird, cos_pi_div_three, sin_pi_div_three, mul_assoc 2, cos_two_mul] at hcos
  by_contra hlt
  have hle := (Position.half_greatCircle_mem ⟨355, 60⟩ ⟨5, 60⟩).2
  have hsmaller : cos (Position.greatCircle ⟨355, 60⟩ ⟨5, 60⟩ * (π / 180)) < cos (5 * (π / 180)) :=
    cos_lt_cos_of_nonneg_of_le_pi (by positivity) (by linarith)
      (mul_lt_mul_of_pos_right (not_le.1 hlt) (by positivity))
  nlinarith [sq_nonneg (1 - cos (5 * (π / 180))), Real.mul_self_sqrt (show (0 : ℝ) ≤ 3 by norm_num)]

/-- A row that the seam parts from the center of a cone. -/
theorem cone_search_exact_across_seam :
    ∃ s center radius, ParameterSet.read .cone [("RA", "355"), ("DEC", "60"), ("SR", "5")] = .ok s ∧
      center? .cone s = .ok (some (center, .standard)) ∧ halfWidths s = .ok (radius, radius) ∧
      Float64.value center.lat ∈ Set.Icc (-90) 90 ∧ 0 ≤ Float64.value radius ∧
      1e-6 ≤ |Float64.value radius - 180| ∧
      ∃ region, exactRegion? .cone s = .ok (some region) ∧
        (region.coarseBox.latMin ≤ 60 ∧ 60 ≤ region.coarseBox.latMax ∧
          ∃ i ∈ region.coarseBox.lonRanges, i.1 ≤ 5 ∧ 5 ≤ i.2) ∧
        region.accepts ⟨some 5, some 60, none, none, none⟩ = true := by
  have hread : ∃ s, ParameterSet.read .cone [("RA", "355"), ("DEC", "60"), ("SR", "5")] = .ok s ∧
      center? .cone s = .ok (some (⟨355.0, 60.0⟩, .standard)) ∧
      halfWidths s = .ok (5.0, 5.0) := ⟨_, rfl, rfl, rfl⟩
  obtain ⟨s, hs, hcenter, hradius⟩ := hread
  have hlon : Float64.value 355.0 = 355 := by
    simpa using Float64.value_eq (n := 355) (by decide +kernel)
  have hlat : Float64.value 60.0 = 60 := by
    simpa using Float64.value_eq (n := 60) (by decide +kernel)
  have hfive : Float64.value 5.0 = 5 := by
    simpa using Float64.value_eq (n := 5) (by decide +kernel)
  have hrange : Float64.value 60.0 ∈ Set.Icc (-90) 90 := by norm_num [hlat]
  have hnonneg : 0 ≤ Float64.value 5.0 := by norm_num [hfive]
  have hsky : 1e-6 ≤ |Float64.value 5.0 - 180| := by norm_num [hfive, abs_of_neg]
  obtain ⟨region, hregion, hrows⟩ := cone_search_exact hcenter hradius hrange hnonneg hsky
  have hrow := (hrows ⟨some 5, some 60, none, none, none⟩ ⟨5, 60⟩ rfl rfl (by norm_num)
    (by norm_num)).2 (by rw [hlon, hlat, hfive]; exact greatCircle_across_seam)
  exact ⟨s, _, _, hs, hcenter, hradius, hrange, hnonneg, hsky, region, hregion, hrow⟩

/-! ## Rows that the coarse box keeps for refinement -/

/-- The region of a request lies on the sphere. -/
theorem exactRegion?_mem {p : Protocol} {s : ParameterSet} {region : Region ℝ}
    (h : exactRegion? p s = .ok (some region)) :
    region.center.lon ∈ Set.Ico 0 360 ∧ |region.center.lat| ≤ 90 ∧ 0 ≤ region.halfLon ∧
      0 ≤ region.halfLat := by
  obtain ⟨center, frame, halfLon, halfLat, -, -, hlat, hlonPos, hlatPos, -, rfl⟩ :=
    (exactRegion?_eq_ok_iff _ _ _).1 h
  exact ⟨Longitude.normalize_mem _, hlat, hlonPos, hlatPos⟩

/-- The box of a region holds no latitude beyond twice the half-width. -/
theorem coarseBox_contains_eq_false {r : Region ℝ} {q : Position ℝ} (hhalf : 0 ≤ r.halfLat)
    (h : 2 * r.halfLat < |q.lat - r.center.lat|) : r.coarseBox.contains q = false := by
  rw [← Bool.not_eq_true, Region.coarseBox_eq, SkyBox.contains_iff]
  rintro ⟨hlow, hhigh, -⟩
  obtain ⟨hmin, hmax, -⟩ :=
    SkyBox.around_cases r.center (2 * r.halfLon) (b := 2 * r.halfLat) (by linarith)
  rw [hmin, max_le_iff] at hlow
  rw [hmax, le_min_iff] at hhigh
  exact h.not_ge (abs_le.2 ⟨by linarith [hlow.1], by linarith [hhigh.1]⟩)

/-- A dataset that refinement keeps lies in the coarse box if it is within twice the shorter
half-width, as it is when its extent adds no more than that to the radius.  Within the half-width in
longitude its latitude alone decides. -/
theorem coarseBox_contains_of_accepts {p : Protocol} {s : ParameterSet} {region : Region ℝ}
    (hregion : exactRegion? p s = .ok (some region)) {row : Sighting ℝ} {q : Position ℝ}
    (hlon : row.lon = some q.lon) (hlat : row.lat = some q.lat) (hqlon : q.lon ∈ Set.Ico 0 360)
    (hqlat : q.lat ∈ Set.Icc (-90) 90) (haccepts : region.accepts row = true) :
    (Position.greatCircle region.center q ≤ 2 * min region.halfLon region.halfLat ∨
        max region.halfLon region.halfLat + region.halfExtent row ≤
          2 * min region.halfLon region.halfLat →
      region.coarseBox.contains q = true) ∧
    (Position.greatCircle region.center q ≤ region.halfLon →
      (region.coarseBox.contains q = true ↔
        |q.lat - region.center.lat| ≤ 2 * region.halfLat)) := by
  obtain ⟨hcenter, hcenterLat, -, hhalfLat⟩ := exactRegion?_mem hregion
  rw [Region.accepts_iff _ hlon hlat] at haccepts
  rw [Region.coarseBox_eq]
  constructor
  · intro h
    have hnear : Position.greatCircle region.center q ≤ 2 * min region.halfLon region.halfLat :=
      h.elim id haccepts.trans
    apply SkyBox.contains_around hcenter hcenterLat hqlon (abs_le.2 hqlat)
    · linarith [min_le_left region.halfLon region.halfLat]
    · linarith [min_le_right region.halfLon region.halfLat]
  · intro hnear
    obtain ⟨hmin, hmax, -⟩ :=
      SkyBox.around_cases region.center (2 * region.halfLon) (b := 2 * region.halfLat) (by linarith)
    rw [SkyBox.contains_around_iff hcenter hqlon (by linarith) (by linarith), hmin, hmax,
      max_le_iff, le_min_iff, abs_le]
    constructor
    · rintro ⟨⟨hlow, -⟩, hhigh, -⟩
      exact ⟨by linarith, by linarith⟩
    · rintro ⟨hlow, hhigh⟩
      exact ⟨⟨by linarith, hqlat.1⟩, by linarith, hqlat.2⟩

/-- The region of an image search around (10, 10). -/
theorem exactRegion?_around_ten {s : ParameterSet} {frame : Frame} {halfLon halfLat : Float}
    {m n : ℝ} (hcenter : center? .image s = .ok (some (⟨10.0, 10.0⟩, frame)))
    (hwidths : halfWidths s = .ok (halfLon, halfLat)) (hm : Float64.value halfLon = m)
    (hn : Float64.value halfLat = n) (hlon : m ∈ Set.Icc 0 179) (hlat : 0 ≤ n) :
    exactRegion? .image s = .ok (some ⟨⟨10, 10⟩, m, n, frame, true⟩) := by
  have hten : Float64.value 10.0 = 10 := by
    simpa using Float64.value_eq (n := 10) (by decide +kernel)
  refine (exactRegion?_eq_ok_iff _ _ _).2 ⟨_, _, _, _, hcenter, hwidths, ?_, ?_, ?_, ?_, ?_⟩
  · norm_num [hten]
  · exact hm ▸ hlon.1
  · exact hn ▸ hlat
  · rw [hm, abs_of_neg (by linarith [hlon.2])]
    linarith [hlon.2]
  · dsimp only
    rw [hten, hm, hn, Longitude.normalize_of_mem (by norm_num)]
    rfl

/-- On the meridian of the region the angle is the difference of the latitudes. -/
theorem accepts_on_meridian {r : Region ℝ} {row : Sighting ℝ} {x : ℝ}
    (hcenter : r.center = ⟨10, 10⟩) (hlon : row.lon = some 10) (hlat : row.lat = some x)
    (hx : x ∈ Set.Icc 10 90) :
    r.accepts row = true ↔ x - 10 ≤ max r.halfLon r.halfLat + r.halfExtent row := by
  obtain ⟨hlow, hhigh⟩ := hx
  rw [Region.accepts_iff r (p := ⟨10, x⟩) hlon hlat, hcenter,
    Position.greatCircle_of_lon_eq (p := ⟨10, 10⟩) (q := ⟨10, x⟩) rfl (by norm_num)
      (abs_le.2 ⟨by linarith, hhigh⟩), abs_of_nonneg (by linarith)]

/-- A dataset of two degrees that reaches into a search of one degree. -/
theorem coarseBox_contains_of_accepts_touching :
    ∃ s region, ParameterSet.read .image [("POS", "10,10"), ("SIZE", "1")] = .ok s ∧
      exactRegion? .image s = .ok (some region) ∧
      region.accepts ⟨some 10, some 11.5, some 3.6, some 2000, none⟩ = true ∧
      region.coarseBox.contains ⟨10, 11.5⟩ = true := by
  have hread : ∃ s, ParameterSet.read .image [("POS", "10,10"), ("SIZE", "1")] = .ok s ∧
      center? .image s = .ok (some (⟨10.0, 10.0⟩, .standard)) ∧
      halfWidths s = .ok (1.0, 1.0) := ⟨_, rfl, rfl, rfl⟩
  obtain ⟨s, hs, hcenter, hwidths⟩ := hread
  have hone : Float64.value 1.0 = 1 := by
    simpa using Float64.value_eq (n := 1) (by decide +kernel)
  have hregion := exactRegion?_around_ten hcenter hwidths hone hone (by norm_num) (by norm_num)
  have hextent : Region.halfExtent (⟨⟨10, 10⟩, 1, 1, .standard, true⟩ : Region ℝ)
      ⟨some 10, some 11.5, some 3.6, some 2000, none⟩ = 1 := by
    norm_num [Region.halfExtent, Scalar.larger, Scalar.abs]
  have haccepts : Region.accepts (⟨⟨10, 10⟩, 1, 1, .standard, true⟩ : Region ℝ)
      ⟨some 10, some 11.5, some 3.6, some 2000, none⟩ = true := by
    rw [accepts_on_meridian rfl rfl rfl (by norm_num), hextent]
    norm_num
  have hinside : max (1 : ℝ) 1 + 1 ≤ 2 * min 1 1 := by norm_num
  exact ⟨s, _, hs, hregion, haccepts,
    (coarseBox_contains_of_accepts hregion (q := ⟨10, 11.5⟩) rfl rfl (by norm_num) (by norm_num)
      haccepts).1 (.inr (hextent ▸ hinside))⟩

/-- The box takes no account of the extent of a dataset, nor of the longer side of an oblong search
in the other direction: it leaves out rows that refinement would keep. -/
theorem coarseBox_misses_accepted :
    (∃ s region, ParameterSet.read .image [("POS", "10,10"), ("SIZE", "1")] = .ok s ∧
      exactRegion? .image s = .ok (some region) ∧
      region.accepts ⟨some 10, some 12.4, some 3.6, some 3000, none⟩ = true ∧
      region.coarseBox.contains ⟨10, 12.4⟩ = false) ∧
    (∃ s region, ParameterSet.read .image [("POS", "10,10"), ("SIZE", "4,1")] = .ok s ∧
      exactRegion? .image s = .ok (some region) ∧
      region.accepts ⟨some 10, some 12.4, none, none, none⟩ = true ∧
      region.coarseBox.contains ⟨10, 12.4⟩ = false) := by
  have hread : ∃ s, ParameterSet.read .image [("POS", "10,10"), ("SIZE", "1")] = .ok s ∧
      center? .image s = .ok (some (⟨10.0, 10.0⟩, .standard)) ∧
      halfWidths s = .ok (1.0, 1.0) := ⟨_, rfl, rfl, rfl⟩
  have hoblong : ∃ s, ParameterSet.read .image [("POS", "10,10"), ("SIZE", "4,1")] = .ok s ∧
      center? .image s = .ok (some (⟨10.0, 10.0⟩, .standard)) ∧
      halfWidths s = .ok (4.0, 1.0) := ⟨_, rfl, rfl, rfl⟩
  have hone : Float64.value 1.0 = 1 := by
    simpa using Float64.value_eq (n := 1) (by decide +kernel)
  have hfour : Float64.value 4.0 = 4 := by
    simpa using Float64.value_eq (n := 4) (by decide +kernel)
  constructor
  · obtain ⟨s, hs, hcenter, hwidths⟩ := hread
    refine ⟨s, _, hs, exactRegion?_around_ten hcenter hwidths hone hone (by norm_num)
      (by norm_num), ?_, coarseBox_contains_eq_false (by norm_num) (by norm_num [abs_of_pos])⟩
    rw [accepts_on_meridian rfl rfl rfl (by norm_num)]
    norm_num [Region.halfExtent, Scalar.larger, Scalar.abs]
  · obtain ⟨s, hs, hcenter, hwidths⟩ := hoblong
    refine ⟨s, _, hs, exactRegion?_around_ten hcenter hwidths hfour hone (by norm_num)
      (by norm_num), ?_, coarseBox_contains_eq_false (by norm_num) (by norm_num [abs_of_pos])⟩
    rw [accepts_on_meridian rfl rfl rfl (by norm_num)]
    norm_num [Region.halfExtent]

end CatalogQuery

end SkyDiscovery
