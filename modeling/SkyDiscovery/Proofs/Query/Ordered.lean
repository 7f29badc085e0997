import SkyDiscovery.Proofs.Query.Widening
import SkyDiscovery.Sample.Contexts

/-!
# Intervals with their bounds in order

The bounds of a range are put in order when a list takes the range, numbers by the total order and
dates by their seconds and nanoseconds.  The interval that comes of the range has Modified Julian
Dates for the dates.  A leap second has the nanoseconds of two seconds, so that its end comes to
more than the start of the second behind it, and only there do the two orders differ.

* `Calendar.Instant.mjd_eq`: the Modified Julian Date of an instant.
* `Calendar.Instant.mjd_lt_iff_overruns`: where the order of Modified Julian Dates differs from that
  of dates.
* `Range.high_lt_low_iff`: which ranges of a list come to bounds in the wrong order.
* `CatalogQuery.high_lt_low_iff_overruns`: which intervals of a compiled query do.
* `CatalogQuery.leap_second_runs_over`: one that does.
-/

namespace SkyDiscovery

/-! ## Instants -/

namespace Calendar.Instant

/-- The instant is in a leap second, and further into it than a second and the part of the next
second that `t` is at. -/
def Overruns (s t : Instant) : Prop :=
  t.seconds = s.seconds + 1 ∧ t.nanos + 1_000_000_000 < s.nanos

instance (s t : Instant) : Decidable (s.Overruns t) :=
  inferInstanceAs (Decidable (_ ∧ _))

/-- The Modified Julian Date counts days, and 1970 begins after 40587 of them. -/
theorem mjd_eq (t : Instant) :
    (t.mjd : ℚ) = 40587 + (t.seconds + t.nanos / 1_000_000_000) / 86400 := by
  unfold mjd
  push_cast
  norm_num
  ring

/-- The count begins with the 17th of November 1858. -/
example : ((ofLocal ⟨1858, 11, 17⟩ .midnight 0).mjd : ℚ) = 0 := by decide +kernel

theorem mjd_lt_iff (s t : Instant) :
    (t.mjd : ℚ) < s.mjd ↔
      t.seconds * 1_000_000_000 + t.nanos < s.seconds * 1_000_000_000 + s.nanos := by
  have hmjd (u : Instant) : (u.mjd : ℚ) =
      40587 + ((u.seconds * 1_000_000_000 + u.nanos : ℤ) : ℚ) / 86_400_000_000_000 := by
    rw [mjd_eq]
    push_cast
    ring
  rw [hmjd, hmjd, add_lt_add_iff_left, div_lt_div_iff_of_pos_right (by norm_num), Int.cast_lt]

theorem compare_ne_gt_iff (s t : Instant) :
    s.compare t ≠ .gt ↔ s.seconds < t.seconds ∨ s.seconds = t.seconds ∧ s.nanos ≤ t.nanos := by
  rw [compare]
  rcases lt_trichotomy s.seconds t.seconds with h | h | h
  · rw [compare_lt_iff_lt.2 h]
    exact iff_of_true (show Ordering.lt ≠ .gt by decide) (.inl h)
  · rw [compare_eq_iff_eq.2 h, Ordering.eq_then, ne_eq, compare_gt_iff_gt]
    omega
  · rw [compare_gt_iff_gt.2 h]
    exact iff_of_false (fun hne => hne rfl) (by omega)

/-- A later instant has an earlier date only if a leap second runs over it. -/
theorem mjd_lt_iff_overruns {s t : Instant} (hs : s.nanos < 2_000_000_000)
    (h : s.compare t ≠ .gt) : (t.mjd : ℚ) < s.mjd ↔ s.Overruns t := by
  rw [compare_ne_gt_iff] at h
  rw [mjd_lt_iff, Overruns]
  omega

end Calendar.Instant

/-! ## Ranges -/

namespace Range

open Calendar

/-- The range is between two dates, of which the first runs over the second. -/
def Overruns (r : Range) : Prop :=
  ∃ s t : Instant, r = .closed (.date s) (.date t) ∧ s.Overruns t

section

variable {list : RangeList} {type : ValueType} {r : Range}

theorem proper_of_mem (hlist : list.Readable) (hr : r ∈ list.ranges) {t : Instant}
    (ht : .date t ∈ r.endpoints) : t.Proper := by
  cases hlist.ranges r hr with
  | word _ _ => simp [endpoints] at ht
  | bounds _ _ hreadable =>
    cases hreadable _ ht with
    | date hproper _ => exact hproper

/-- Of the ranges of an ordered list of numbers or dates only those that overrun come to a high
bound less than the low one. -/
theorem high_lt_low_iff (hlist : list.Readable) (hordered : list.ordered = true)
    (hdeclared : list.declared = some type) (htext : type ≠ .text) (hr : r ∈ list.ranges)
    {low high : ℚ} (hlow : (r.amounts Binary64.toRat).1 = some low)
    (hhigh : (r.amounts Binary64.toRat).2 = some high) : high < low ↔ r.Overruns := by
  cases r with
  | any => cases hlow
  | atLeast a => cases hhigh
  | atMost b => cases hlow
  | single v =>
    obtain rfl : low = high := Option.some.inj (hlow.symm.trans hhigh)
    refine iff_of_false (lt_irrefl low) ?_
    rintro ⟨s, t, h, -⟩
    cases h
  | closed a b =>
    have ha : a.type = type := hlist.type_of_mem hordered hdeclared hr (by simp [endpoints])
    have hb : b.type = type := hlist.type_of_mem hordered hdeclared hr (by simp [endpoints])
    have horder : a.compare b ≠ .gt := compare_ne_gt_of_normalize (hlist.normal hordered _ hr)
    subst ha
    cases a with
    | text s => exact absurd rfl htext
    | number x =>
      cases b with
      | text s => cases hb
      | date t => cases hb
      | number y =>
        cases hlow
        cases hhigh
        have hle : x.toRat ≤ y.toRat := Binary64.toRat_le_of_compareTotal horder
        refine iff_of_false (not_lt.2 hle) ?_
        rintro ⟨s, t, h, -⟩
        cases h
    | date s =>
      cases b with
      | text t => cases hb
      | number y => cases hb
      | date t =>
        cases hlow
        cases hhigh
        have hproper : s.Proper := proper_of_mem hlist hr (by simp [endpoints])
        rw [Instant.mjd_lt_iff_overruns hproper.nanos_lt horder]
        constructor
        · exact fun h => ⟨s, t, rfl, h⟩
        · rintro ⟨s', t', h, hoverruns⟩
          cases h
          exact hoverruns

end

/-- A finite double that comes of a number is this number. -/
theorem exact_of_number {x : Endpoint} (hx : x.type = .numeric) {f : Float}
    (hf : x.amount? Binary64.toFloat = some f) (hfinite : f.isFinite) :
    ∃ a : ℚ, x.amount? Binary64.toRat = some a ∧ Float64.value f = a := by
  cases x with
  | text s => cases hx
  | date t => cases hx
  | number y =>
    cases hf
    rw [Binary64.isFinite_toFloat] at hfinite
    exact ⟨y.toRat, rfl, by rw [Float64.value, Binary64.ofFloat_toFloat hfinite]⟩

end Range

/-! ## Queries -/

namespace CatalogQuery

variable {p : Protocol} {t : TableMapping} {c : Context} {s : ParameterSet} {q : CatalogQuery}
  {w : Wishes} {pairs : List (String × String)}

/-- The bounded ranges that a request gives along an axis. -/
def boundedRanges (s : ParameterSet) (x : IntervalAxis) : List Range :=
  match s.ranges? x.parameter with
  | none => []
  | some list => list.ranges.filter (· ≠ .any)

theorem along_eq (hread : ParameterSet.read p pairs = .ok s) (hw : wishes p s = .ok w)
    (x : IntervalAxis) :
    w.along x = (boundedRanges s x).map (.ofRange Binary64.toFloat) ∧
      ∀ i ∈ w.along x, i.Checked := by
  have hintervals := intervals_of_wishes hw x
  rw [boundedRanges]
  cases hlist : s.ranges? x.parameter with
  | some list => exact eq_map_of_intervals (declared_of_ranges? hread hlist).1 hlist hintervals
  | none =>
    rw [intervals, Interval.ofParameter, hlist, ite_self] at hintervals
    rw [← Except.ok.inj hintervals]
    exact ⟨rfl, List.forall_mem_nil _⟩

theorem exists_list_of_mem {x : IntervalAxis} {r : Range} (hr : r ∈ boundedRanges s x) :
    ∃ list, s.ranges? x.parameter = some list ∧ r ∈ list.ranges := by
  rw [boundedRanges] at hr
  split at hr
  · cases hr
  · next list hlist => exact ⟨list, hlist, (List.mem_filter.1 hr).1⟩

theorem high_lt_low_iff (hread : ParameterSet.read p pairs = .ok s) {x : IntervalAxis} {r : Range}
    (hr : r ∈ boundedRanges s x) {low high : ℚ}
    (hlow : (r.amounts Binary64.toRat).1 = some low)
    (hhigh : (r.amounts Binary64.toRat).2 = some high) :
    high < low ↔ x = .temporal ∧ r.Overruns := by
  obtain ⟨list, hlist, hmem⟩ := exists_list_of_mem hr
  obtain ⟨-, hreadable, hordered, hdeclared⟩ := declared_of_ranges? hread hlist
  have htext : x.type ≠ .text := by cases x <;> decide
  rw [Range.high_lt_low_iff hreadable hordered hdeclared htext hmem hlow hhigh, iff_and_self]
  rintro ⟨s, t, rfl, -⟩
  have hdate : (Endpoint.date s).type = x.type :=
    hreadable.type_of_mem hordered hdeclared hmem (by simp [Range.endpoints])
  cases x with
  | spectral => cases hdate
  | temporal => rfl

/-- The doubles of a band are in order as its numbers are. -/
theorem low_le_high_of_mem_band (hread : ParameterSet.read p pairs = .ok s) {r : Range}
    (hr : r ∈ boundedRanges s .spectral) {low high : Float}
    (hlow : (r.amounts Binary64.toFloat).1 = some low)
    (hhigh : (r.amounts Binary64.toFloat).2 = some high) (hlowFinite : low.isFinite)
    (hhighFinite : high.isFinite) : low ≤ high := by
  obtain ⟨list, hlist, hmem⟩ := exists_list_of_mem hr
  obtain ⟨-, hreadable, hordered, hdeclared⟩ := declared_of_ranges? hread hlist
  obtain ⟨a, ha, hamount⟩ := Option.bind_eq_some_iff.1 hlow
  obtain ⟨b, hb, hbmount⟩ := Option.bind_eq_some_iff.1 hhigh
  have hatype : a.type = .numeric :=
    hreadable.type_of_mem hordered hdeclared hmem (Range.mem_endpoints_iff.2 (.inl ha))
  have hbtype : b.type = .numeric :=
    hreadable.type_of_mem hordered hdeclared hmem (Range.mem_endpoints_iff.2 (.inr hb))
  obtain ⟨l, hl, hlvalue⟩ := Range.exact_of_number hatype hamount hlowFinite
  obtain ⟨h, hh, hhvalue⟩ := Range.exact_of_number hbtype hbmount hhighFinite
  have hnot : ¬ h < l := fun hlt => by
    have hexact := high_lt_low_iff hread hr (Option.bind_eq_some_iff.2 ⟨a, ha, hl⟩)
      (Option.bind_eq_some_iff.2 ⟨b, hb, hh⟩)
    cases (hexact.1 hlt).1
  rw [Float64.le_iff hlowFinite hhighFinite, hlvalue, hhvalue, Rat.cast_le]
  exact not_lt.1 hnot

/-- An interval of a compiled query has its bounds in the wrong order just if it is one of two
dates, of which the first is in a leap second and runs over the second. -/
theorem high_lt_low_iff_overruns (hread : ParameterSet.read p pairs = .ok s)
    (hcompile : compile p t c s = .ok q) :
    ∃ w, wishes p s = .ok w ∧ q.band = w.band.head? ∧ q.time = w.time.head? ∧
      q.constraints = p.axes.filterMap (constraint? p t s w) ∧
      (∀ i ∈ w.band, ∀ low high, i.low = some low → i.high = some high → low ≤ high) ∧
      ∀ x, w.along x = (boundedRanges s x).map (.ofRange Binary64.toFloat) ∧
        ∀ r ∈ boundedRanges s x, ∀ low high : ℚ,
          (Interval.ofRange Binary64.toRat r).low = some low →
          (Interval.ofRange Binary64.toRat r).high = some high →
          (high < low ↔ x = .temporal ∧ r.Overruns) := by
  obtain ⟨w, hw, -, -, hconstraints⟩ := compile_parts hcompile
  obtain ⟨-, hband, htime⟩ := searches_of_compile hcompile hw
  refine ⟨w, hw, hband, htime, hconstraints, ?_, fun x => ⟨(along_eq hread hw x).1, ?_⟩⟩
  · intro i hi low high hlow hhigh
    obtain ⟨heq, hchecked⟩ := along_eq hread hw .spectral
    have hfinite := (hchecked i hi).finite
    rw [show w.band = _ from heq] at hi
    obtain ⟨r, hr, rfl⟩ := List.mem_map.1 hi
    apply low_le_high_of_mem_band hread hr hlow hhigh
    · exact hfinite low (List.mem_append_left _ (Option.mem_toList.2 hlow))
    · exact hfinite high (List.mem_append_right _ (Option.mem_toList.2 hhigh))
  · intro r hr low high hlow hhigh
    exact high_lt_low_iff hread hr hlow hhigh

/-- The end of a leap second up to the second behind it, and a band that is upside down. -/
theorem high_lt_low_iff_overruns_leap_second :
    ∃ s q i r low high,
      ParameterSet.read .image [("BAND", "3/1"),
        ("TIME", "2016-12-31T23:59:60.9Z/2017-01-01T00:00:00Z")] = .ok s ∧
      compile .image TableConfig.empty.mapping Sample.imageContext s = .ok q ∧
      q.band = some i ∧ (∀ low high, i.low = some low → i.high = some high → low ≤ high) ∧
      q.time = some (.ofRange Binary64.toFloat r) ∧
      (Interval.ofRange Binary64.toRat r).low = some low ∧
      (Interval.ofRange Binary64.toRat r).high = some high ∧ high < low := by
  have hcompiled : ((ParameterSet.read .image [("BAND", "3/1"),
      ("TIME", "2016-12-31T23:59:60.9Z/2017-01-01T00:00:00Z")]).toOption.any fun s =>
        (compile .image TableConfig.empty.mapping Sample.imageContext s).toOption.any fun q =>
          q.band.isSome ∧ boundedRanges s .temporal =
            [.closed (.date ⟨1483228799, 1_900_000_000⟩) (.date ⟨1483228800, 0⟩)]) = true := by
    decide +kernel
  obtain ⟨s, hread, hs⟩ := exists_ok_of_any hcompiled
  obtain ⟨q, hcompile, hq⟩ := exists_ok_of_any hs
  obtain ⟨hsome, hranges⟩ := of_decide_eq_true hq
  obtain ⟨i, hi⟩ := Option.isSome_iff_exists.1 hsome
  obtain ⟨w, -, hband, htime, -, hordered, hexact⟩ := high_lt_low_iff_overruns hread hcompile
  obtain ⟨halong, hoverruns⟩ := hexact .temporal
  rw [hranges] at halong hoverruns
  rw [show w.time = _ from halong] at htime
  refine ⟨s, q, i, _, _, _, hread, hcompile, hi, ?_, htime, rfl, rfl, ?_⟩
  · exact hordered i (List.mem_of_mem_head? (hband.symm.trans hi))
  · exact (hoverruns _ List.mem_cons_self _ _ rfl rfl).2 ⟨rfl, _, _, rfl, by decide⟩

/-- The leap second has its end behind the start of the next second, as an exact date and as a
double. -/
theorem leap_second_runs_over :
    ∃ s q r a b i low high, ParameterSet.read .image
        [("TIME", "2016-12-31T23:59:60.9Z/2017-01-01T00:00:00Z")] = .ok s ∧
      compile .image TableConfig.empty.mapping Sample.imageContext s = .ok q ∧
      boundedRanges s .temporal = [r] ∧ (Interval.ofRange Binary64.toRat r).low = some a ∧
      (Interval.ofRange Binary64.toRat r).high = some b ∧ b < a ∧
      q.time = some i ∧ i.low = some low ∧ i.high = some high ∧ high < low := by
  have hcompiled : ((ParameterSet.read .image
      [("TIME", "2016-12-31T23:59:60.9Z/2017-01-01T00:00:00Z")]).toOption.any fun s =>
        (compile .image TableConfig.empty.mapping Sample.imageContext s).toOption.any fun q =>
          boundedRanges s .temporal =
            [.closed (.date ⟨1483228799, 1_900_000_000⟩) (.date ⟨1483228800, 0⟩)] ∧
          q.time.any fun i => i.low.any fun low => i.high.any fun high => high < low) = true := by
    decide +kernel
  obtain ⟨s, hread, hs⟩ := exists_ok_of_any hcompiled
  obtain ⟨q, hcompile, hq⟩ := exists_ok_of_any hs
  obtain ⟨hranges, htime⟩ := of_decide_eq_true hq
  obtain ⟨i, hi, hbounds⟩ := (Option.any_eq_true _ _).1 htime
  obtain ⟨low, hlow, hbound⟩ := (Option.any_eq_true _ _).1 hbounds
  obtain ⟨high, hhigh, hless⟩ := (Option.any_eq_true _ _).1 hbound
  exact ⟨s, q, _, _, _, i, low, high, hread, hcompile, hranges, rfl, rfl, by decide +kernel, hi,
    hlow, hhigh, of_decide_eq_true hless⟩

end CatalogQuery

end SkyDiscovery
