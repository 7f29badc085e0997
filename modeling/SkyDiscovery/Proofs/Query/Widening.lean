import SkyDiscovery.Proofs.Parameter.Keys
import SkyDiscovery.Proofs.Query.Interval
import SkyDiscovery.Proofs.Query.Where
import SkyDiscovery.Proofs.Range.Widening
import SkyDiscovery.Sample.Contexts

/-!
# Searches with further ranges

The constraint of a bandpass or a time admits the rows that overlap one of its bounded ranges, and
all rows if it has none.  A further range therefore admits further rows, unless it is the first
bounded one: beside it the unbounded ranges no longer count.

* `forall_anyOverlap?_iff`: what the overlap with several intervals comes to.
* `admits_iff`: the rows that a range parameter admits.
* `admits_of_widens`: what becomes of them with further ranges.
* `unbounded_range_does_not_widen`: a row that is lost beside an unbounded range.
-/

namespace SkyDiscovery

open Sql

/-! ## Intervals -/

namespace Interval

variable {lowColumn highColumn : String}

/-- A row passes the condition if there is none or it overlaps one of the intervals. -/
theorem forall_anyOverlap?_iff {is : List (Interval Float)} (h : ∀ i ∈ is, i.Checked)
    (row : Sql.Row) :
    (∀ c ∈ anyOverlap? lowColumn highColumn is, ∀ f ∈ c, f.HoldsOn row) ↔
      is = [] ∨ ∃ i ∈ is, ∀ f ∈ overlap lowColumn highColumn i, f.HoldsOn row := by
  have hgroups : (is = [] ∨ ∃ i ∈ is, ∀ f ∈ overlap lowColumn highColumn i, f.HoldsOn row) ↔
      is.map (overlap lowColumn highColumn) = [] ∨
        ∃ c ∈ is.map (overlap lowColumn highColumn), ∀ f ∈ c, f.HoldsOn row := by
    simp
  rw [hgroups, anyOverlap?, filter_overlap h]
  generalize is.map (overlap lowColumn highColumn) = cs
  rcases cs with _ | ⟨c, _ | ⟨d, cs⟩⟩
  · simp
  · simp
  · simp [Factor.holdsOn_group_iff]

end Interval

/-! ## Constraints of a parameter -/

namespace CatalogQuery

variable {p : Protocol} {t : TableMapping} {c : Context} {s : ParameterSet} {q : CatalogQuery}

/-- The text of every constraint from a parameter, read by itself, is true on a row. -/
def Admits (q : CatalogQuery) (parameter : String) (row : Sql.Row) : Prop :=
  ∀ k ∈ q.constraints, k.parameter = parameter →
    (readCondition k.text).bind (·.truth row) = some true

instance (q : CatalogQuery) (parameter : String) (row : Sql.Row) :
    Decidable (q.Admits parameter row) :=
  inferInstanceAs (Decidable (∀ k ∈ q.constraints, k.parameter = parameter → _))

/-- Over columns with plain names a constraint admits the rows on which its factors hold. -/
theorem admits_iff_holdsOn (hcolumns : ∀ canonical column,
      t.resolve canonical = some column → Identifier column)
    (hcompile : compile p t c s = .ok q) {w : Wishes} (hw : wishes p s = .ok w) {a : Axis}
    (ha : a ∈ p.axes) (row : Sql.Row) :
    q.Admits a.parameter row ↔
      ∀ k ∈ constraint? p t s w a, ∀ f ∈ k.condition, f.HoldsOn row := by
  have hsound := sound_of_compile (forall_column (by decide) hcolumns) hcompile
  have hmeans : ∀ k ∈ q.constraints, (readCondition k.text).bind (·.truth row) = some true ↔
      ∀ f ∈ k.condition, f.HoldsOn row := by
    intro k hk
    obtain ⟨e, he, hmeans⟩ := Constraint.exists_readCondition (hsound k hk)
    rw [he]
    exact hmeans row
  constructor
  · intro h k hk
    obtain ⟨hmem, hparameter⟩ := (mem_constraints_iff hcompile hw a k).2 ⟨ha, hk⟩
    exact (hmeans k hmem).1 (h k hmem hparameter)
  · intro h k hmem hparameter
    obtain ⟨-, hk⟩ := (mem_constraints_iff hcompile hw a k).1 ⟨hmem, hparameter⟩
    exact (hmeans k hmem).2 (h k hk)

/-- A protocol without an axis does not constrain by its parameter. -/
theorem admits_of_not_mem (hcompile : compile p t c s = .ok q) {a : Axis} (ha : a ∉ p.axes)
    (row : Sql.Row) : q.Admits a.parameter row := by
  obtain ⟨w, hw, -⟩ := compile_parts hcompile
  intro k hmem hparameter
  exact absurd ((mem_constraints_iff hcompile hw a k).1 ⟨hmem, hparameter⟩).1 ha

end CatalogQuery

/-! ## Axes with intervals -/

namespace IntervalAxis

/-- The interval of a row overlaps a range; a bound that the row or the range lacks is open. -/
def Overlaps (x : IntervalAxis) (t : TableMapping) (row : Sql.Row) (r : Range) : Prop :=
  ∀ f ∈ Interval.overlap (t.column x.lowColumn) (t.column x.highColumn)
    (.ofRange Binary64.toFloat r), f.HoldsOn row

/-- A row passes a list of ranges if none of them is bounded or it overlaps a bounded one. -/
def Passes (x : IntervalAxis) (t : TableMapping) (row : Sql.Row) (list : RangeList) : Prop :=
  (∀ r ∈ list.ranges, r = .any) ∨ ∃ r ∈ list.ranges, r ≠ .any ∧ x.Overlaps t row r

end IntervalAxis

namespace CatalogQuery

variable {p : Protocol} {t : TableMapping} {c : Context} {s : ParameterSet} {q : CatalogQuery}

/-- The rows that a range parameter admits. -/
theorem admits_iff (hcolumns : ∀ canonical column, t.resolve canonical = some column →
      Identifier column)
    (hcompile : compile p t c s = .ok q) (x : IntervalAxis) (hp : p.hasAccess = true)
    {list : RangeList} (hlist : s.ranges? x.parameter = some list) (row : Sql.Row) :
    q.Admits x.parameter row ↔ x.Passes t row list := by
  obtain ⟨w, hw, -⟩ := compile_parts hcompile
  obtain ⟨kind, is, hconstraint, his, hchecked⟩ := exists_bounded_of_wishes (t := t) hw x hp hlist
  have hforall : (∀ k ∈ constraint? p t s w x.axis, ∀ f ∈ k.condition, f.HoldsOn row) ↔
      ∀ d ∈ Interval.anyOverlap? (t.column x.lowColumn) (t.column x.highColumn) is,
        ∀ f ∈ d, f.HoldsOn row := by
    rw [hconstraint, overlapping]
    cases Interval.anyOverlap? (t.column x.lowColumn) (t.column x.highColumn) is with
    | none => simp
    | some d => simp
  rw [IntervalAxis.parameter, admits_iff_holdsOn hcolumns hcompile hw ((x.mem_axes_iff p).2 hp),
    hforall, Interval.forall_anyOverlap?_iff hchecked, his]
  simp [IntervalAxis.Passes, IntervalAxis.Overlaps, List.filter_eq_nil_iff, and_assoc]

/-! ## Further ranges -/

/-- What a list with further ranges admits compared to the list without them. -/
structure Widened (x : IntervalAxis) (t : TableMapping) (list list' : RangeList)
    (q q' : CatalogQuery) : Prop where
  ranges : ∀ r ∈ list.ranges, r ∈ list'.ranges
  /-- Beside a bounded range a further one loses no row. -/
  bounded : (∃ r ∈ list.ranges, r ≠ .any) →
    ∀ row, q.Admits x.parameter row → q'.Admits x.parameter row
  /-- Ranges without bounds admit all rows, until a bounded one comes to them. -/
  unbounded : (∀ r ∈ list.ranges, r = .any) →
    ∀ row, q.Admits x.parameter row ∧ (q'.Admits x.parameter row ↔ x.Passes t row list')

theorem widened_of_subset {c' : Context} {s' : ParameterSet} {q' : CatalogQuery}
    (hcolumns : ∀ canonical column, t.resolve canonical = some column → Identifier column)
    (hcompile : compile p t c s = .ok q) (hcompile' : compile p t c' s' = .ok q')
    (x : IntervalAxis) (hp : p.hasAccess = true) {list list' : RangeList}
    (hlist : s.ranges? x.parameter = some list) (hlist' : s'.ranges? x.parameter = some list')
    (hsubset : ∀ r ∈ list.ranges, r ∈ list'.ranges) : Widened x t list list' q q' := by
  have hadmits := admits_iff hcolumns hcompile x hp hlist
  have hadmits' := admits_iff hcolumns hcompile' x hp hlist'
  refine ⟨hsubset, fun ⟨r, hr, hbounded⟩ row hrow => ?_, fun hall row => ?_⟩
  · rw [hadmits']
    rcases (hadmits row).1 hrow with hall | ⟨r', hr', hbounded', hoverlaps⟩
    · exact absurd (hall r hr) hbounded
    · exact .inr ⟨r', hsubset r' hr', hbounded', hoverlaps⟩
  · exact ⟨(hadmits row).2 (.inl hall), hadmits' row⟩

/-! ## Requests -/

/-- Ranges that a request gives once along an axis are those that its text is read as. -/
theorem exists_ranges_of_read {pairs : List (String × String)} {a : String × String}
    (x : IntervalAxis) (hp : p.hasAccess = true)
    (honce : ParameterSet.ofKey (ParameterSet.key x.parameter) pairs = [a])
    (hblank : Text.trim a.2.toList ≠ []) (hread : ParameterSet.read p pairs = .ok s) :
    ∃ list, s.ranges? x.parameter = some list ∧
      RangeList.read (Text.trim a.2.toList) (some x.type) true = .ok list := by
  have hkey : ParameterSet.key a.1 = ParameterSet.key x.parameter :=
    ParameterSet.key_of_mem_ofKey (honce ▸ List.mem_singleton_self a)
  have hlower : ParameterSet.key x.parameter = Text.lower x.parameter := by
    cases x <;> decide +kernel
  obtain ⟨list, hlist, hplace⟩ := ParameterSet.exists_ranges_of_read_once hread
    (by rw [hkey, honce]) (declarationOf_parameter hp hkey) (by simpa [Text.trimmed] using hblank)
  rw [Text.toList_trimmed] at hlist
  refine ⟨list, ?_, hlist⟩
  rw [hkey, hlower] at hplace
  rw [ParameterSet.ranges?, ParameterSet.get?, hplace]
  rfl

/-- A request with further ranges along an axis admits all rows that the request without them
admits, if one of the ranges was bounded before.  Otherwise all rows were admitted, and those are
left that pass the further ranges. -/
theorem admits_of_widens {c' : Context} {s' : ParameterSet} {q' : CatalogQuery}
    {pairs pairs' : List (String × String)} {a a' : String × String} (x : IntervalAxis)
    (hcolumns : ∀ canonical column, t.resolve canonical = some column → Identifier column)
    (honce : ParameterSet.ofKey (ParameterSet.key x.parameter) pairs = [a])
    (honce' : ParameterSet.ofKey (ParameterSet.key x.parameter) pairs' = [a'])
    (hblank : Text.trim a.2.toList ≠ []) (hwidens : RangeList.Widens a.2.toList a'.2.toList)
    (hread : ParameterSet.read p pairs = .ok s) (hread' : ParameterSet.read p pairs' = .ok s')
    (hcompile : compile p t c s = .ok q) (hcompile' : compile p t c' s' = .ok q') :
    (p.hasAccess = true → ∃ list list', s.ranges? x.parameter = some list ∧
      s'.ranges? x.parameter = some list' ∧ Widened x t list list' q q') ∧
    (p.hasAccess = false →
      ∀ row, q.Admits x.parameter row ∧ q'.Admits x.parameter row) := by
  constructor
  · intro hp
    obtain ⟨list, hlist, htext⟩ := exists_ranges_of_read x hp honce hblank hread
    obtain ⟨list', hlist', htext'⟩ :=
      exists_ranges_of_read x hp honce' hwidens.trim_ne_nil hread'
    exact ⟨list, list', hlist, hlist',
      widened_of_subset hcolumns hcompile hcompile' x hp hlist hlist'
        (RangeList.mem_ranges_of_widens hwidens htext htext')⟩
  · intro hp row
    have haxis : x.axis ∉ p.axes := by
      rw [x.mem_axes_iff, hp]
      decide
    exact ⟨admits_of_not_mem hcompile haxis row, admits_of_not_mem hcompile' haxis row⟩

/-- A bandpass with a further one. -/
theorem admits_of_widens_closed :
    ∃ s s' q q', ParameterSet.read .image [("BAND", "1/2")] = .ok s ∧
      ParameterSet.read .image [("MAXREC", "5"), ("Band ", "1/2,7/")] = .ok s' ∧
      compile .image TableConfig.empty.mapping Sample.imageContext s = .ok q ∧
      compile .image TableConfig.empty.mapping Sample.imageContext s' = .ok q' ∧
      ∀ row, q.Admits "BAND" row → q'.Admits "BAND" row := by
  have hfirst : ((ParameterSet.read .image [("BAND", "1/2")]).toOption.any fun s =>
      (compile .image TableConfig.empty.mapping Sample.imageContext s).toOption.any fun _ =>
        (s.ranges? "BAND").any fun list => list.ranges.any (· ≠ .any)) = true := by
    decide +kernel
  have hsecond : ((ParameterSet.read .image [("MAXREC", "5"), ("Band ", "1/2,7/")]).toOption.any
      fun s => (compile .image TableConfig.empty.mapping Sample.imageContext s).toOption.any
        fun _ => true) = true := by
    decide +kernel
  obtain ⟨s, hread, hs⟩ := exists_ok_of_any hfirst
  obtain ⟨q, hcompile, hbounded⟩ := exists_ok_of_any hs
  obtain ⟨s', hread', hs'⟩ := exists_ok_of_any hsecond
  obtain ⟨q', hcompile', -⟩ := exists_ok_of_any hs'
  have hcolumns : ∀ canonical column,
      TableConfig.empty.mapping.resolve canonical = some column → Identifier column := by
    intro canonical column h
    simp [TableConfig.empty, TableConfig.mapping, TableConfig.resolve] at h
  have honce : ParameterSet.ofKey (ParameterSet.key "BAND") [("BAND", "1/2")] =
      [("BAND", "1/2")] := by
    decide +kernel
  have honce' : ParameterSet.ofKey (ParameterSet.key "BAND")
      [("MAXREC", "5"), ("Band ", "1/2,7/")] = [("Band ", "1/2,7/")] := by
    decide +kernel
  obtain ⟨list, list', hlist, -, hwidened⟩ := (admits_of_widens .spectral hcolumns honce honce'
    (by decide) (.behind "1/2".toList "7/".toList) hread hread' hcompile hcompile').1 rfl
  rw [show s.ranges? "BAND" = some list from hlist, Option.any_some, List.any_eq_true] at hbounded
  obtain ⟨r, hr, hne⟩ := hbounded
  exact ⟨s, s', q, q', hread, hread', hcompile, hcompile',
    hwidened.bounded ⟨r, hr, of_decide_eq_true hne⟩⟩

/-- A dataset from 5 to 6 along the spectral axis. -/
def farRow : Sql.Row := fun column =>
  if column = "em_min".toList then .number 5
  else if column = "em_max".toList then .number 6
  else .null

/-- Any bandpass is admitted, but with a further range it is this range that counts. -/
theorem unbounded_range_does_not_widen :
    ∃ s s' q q', RangeList.Widens "/".toList "/,1/2".toList ∧
      ParameterSet.read .image [("BAND", "/")] = .ok s ∧
      ParameterSet.read .image [("BAND", "/,1/2")] = .ok s' ∧
      compile .image TableConfig.empty.mapping Sample.imageContext s = .ok q ∧
      compile .image TableConfig.empty.mapping Sample.imageContext s' = .ok q' ∧
      q.Admits "BAND" farRow ∧ ¬ q'.Admits "BAND" farRow := by
  have hfirst : ((ParameterSet.read .image [("BAND", "/")]).toOption.any fun s =>
      (compile .image TableConfig.empty.mapping Sample.imageContext s).toOption.any fun q =>
        q.Admits "BAND" farRow) = true := by
    decide +kernel
  have hsecond : ((ParameterSet.read .image [("BAND", "/,1/2")]).toOption.any fun s =>
      (compile .image TableConfig.empty.mapping Sample.imageContext s).toOption.any fun q =>
        ¬ q.Admits "BAND" farRow) = true := by
    decide +kernel
  obtain ⟨s, hread, hs⟩ := exists_ok_of_any hfirst
  obtain ⟨q, hcompile, hadmits⟩ := exists_ok_of_any hs
  obtain ⟨s', hread', hs'⟩ := exists_ok_of_any hsecond
  obtain ⟨q', hcompile', hloses⟩ := exists_ok_of_any hs'
  exact ⟨s, s', q, q', .behind "/".toList "1/2".toList, hread, hread', hcompile, hcompile',
    of_decide_eq_true hadmits, of_decide_eq_true hloses⟩

end CatalogQuery

end SkyDiscovery
