import SkyDiscovery.Proofs.Number.Finite
import SkyDiscovery.Proofs.Query.Interval
import SkyDiscovery.Proofs.Query.Reading
import SkyDiscovery.Proofs.Sql.Numerals
import SkyDiscovery.Sample.Contexts

/-!
# Overlapping intervals

A dataset has an interval in two columns, either of which may have no value.  The constraint of a
bandpass or a time is never unknown on such a row: it is true if the interval overlaps one of the
ranges asked for, where a bound that is missing on either side excludes nothing, and false
otherwise.

* `Endpoint.StandsFor`, `Range.Overlaps`: the numbers of a range, and the intervals that overlap it.
* `Factor.evaluate_orNull_of_finite`: a comparison that rows without a value pass is known.
* `Interval.evaluate_anyOverlap?`: the truth of the condition for several intervals.
* `Range.overlaps_iff`: overlapping a range is meeting the interval that is made of it.
* `CatalogQuery.decides_overlap`: the truth of the constraint of a compiled query, as its text is
  read.
-/

namespace SkyDiscovery

open Sql

/-! ## Ranges of numbers and dates -/

/-- The number that an endpoint stands for beside the columns of a catalog.  That of a date is its
Modified Julian Date, which counts days of 86400 seconds and is 40587 when the year 1970 begins. -/
inductive Endpoint.StandsFor (n : Numerals) : Endpoint → ℚ → Prop where
  | number {x : Binary64} {q : ℚ} : n.number x = q → StandsFor n (.number x) q
  | date {t : Calendar.Instant} {q : ℚ} : n.number (.ofFloat
      (40587.0 + (Float.ofInt t.seconds + Float.ofInt t.nanos * 1e-9) / 86400.0)) = q →
      StandsFor n (.date t) q

/-- An interval with the bounds `lo` and `hi`, each of which may be missing, overlaps a range.  A
bound that either of them lacks is open. -/
inductive Range.Overlaps (n : Numerals) (lo hi : Option ℚ) : Range → Prop where
  | single {v : Endpoint} {x : ℚ} : v.StandsFor n x → (∀ q ∈ lo, q ≤ x) → (∀ q ∈ hi, x ≤ q) →
      Overlaps n lo hi (.single v)
  | atLeast {low : Endpoint} {a : ℚ} : low.StandsFor n a → (∀ q ∈ hi, a ≤ q) →
      Overlaps n lo hi (.atLeast low)
  | atMost {high : Endpoint} {b : ℚ} : high.StandsFor n b → (∀ q ∈ lo, q ≤ b) →
      Overlaps n lo hi (.atMost high)
  | closed {low high : Endpoint} {a b : ℚ} : low.StandsFor n a → high.StandsFor n b →
      (∀ q ∈ lo, q ≤ b) → (∀ q ∈ hi, a ≤ q) → Overlaps n lo hi (.closed low high)

/-! ## Truths that are known -/

namespace Sql

theorem Truth.and_some (a b : Bool) : Truth.and (some a) (some b) = some (a && b) := by
  cases a <;> cases b <;> rfl

theorem Truth.or_some (a b : Bool) : Truth.or (some a) (some b) = some (a || b) := by
  cases a <;> cases b <;> rfl

theorem Truth.eq_some_false {v : Truth} (hknown : v ≠ none) (hfalse : v ≠ some true) :
    v = some false := by
  rcases v with _ | _ | _
  · exact absurd rfl hknown
  · rfl
  · exact absurd rfl hfalse

/-- A number, or no value. -/
def Value.ofNumber? : Option ℚ → Value
  | none => .null
  | some q => .number q

namespace Relation

theorem truth_atMost (p q : ℚ) : atMost.truth (.number p) (.number q) = some (decide (p ≤ q)) := by
  rcases lt_trichotomy p q with h | rfl | h
  · simp [truth, Value.compare?, holds, h, h.le]
  · simp [truth, Value.compare?, holds]
  · simp [truth, Value.compare?, holds, h.not_gt, h.ne', h]

theorem truth_atLeast (p q : ℚ) :
    atLeast.truth (.number p) (.number q) = some (decide (q ≤ p)) := by
  rcases lt_trichotomy p q with h | rfl | h
  · simp [truth, Value.compare?, holds, h]
  · simp [truth, Value.compare?, holds]
  · simp [truth, Value.compare?, holds, h.not_gt, h.ne', h.le]

/-- A comparison that is known of numbers, and true where there is none. -/
theorem truth_or_isNull {r : Relation} {P : ℚ → Prop} [DecidablePred P] {b : ℚ}
    (hr : ∀ q, r.truth (.number q) (.number b) = some (decide (P q))) (x : Option ℚ) :
    (r.truth (.ofNumber? x) (.number b)).or (some (Value.ofNumber? x == .null)) =
      some (decide (∀ q ∈ x, P q)) := by
  cases x with
  | none => simp [Value.ofNumber?, truth, Value.compare?, Truth.or]
  | some q =>
    rw [Value.ofNumber?, hr, show (Value.number q == .null) = false from rfl, Truth.or_some,
      Bool.or_false]
    simp

end Relation

end Sql

theorem Factor.evaluate_orNull (v : Test → Truth) (c : Comparison) (column : String) :
    (orNull c column).evaluate v = (v c.test).or (v (.isNull (.column column.toList))) := by
  simp [orNull, Factor.evaluate, Factor.evaluateAny, Conjunction.evaluate, Truth.and_true,
    Truth.or_false, Comparison.test]

/-- A comparison with a finite number, or no value: it is known on every row with a number or no
value in the column. -/
theorem Factor.evaluate_orNull_of_finite {n : Numerals} {row : Sql.Row} {column : String}
    {value : Option ℚ} (hvalue : row column.toList = .ofNumber? value) {x : Float}
    (hx : x.isFinite) {c : Comparison} {r : Relation}
    (hc : c.test = .compare r (.column column.toList) (.ofNumber (.ofFloat x))) {P : ℚ → Prop}
    [DecidablePred P]
    (hr : ∀ q, r.truth (.number q) (.number (n.number (.ofFloat x))) = some (decide (P q))) :
    (orNull c column).evaluate (Test.truthTaking n row) = some (decide (∀ q ∈ value, P q)) := by
  have hnumber := Operand.value_ofNumber n ((Binary64.isFinite_ofFloat x).trans hx) row
  rw [evaluate_orNull, hc]
  simp only [Test.truthTaking, Test.taking, Test.truth, Operand.taking, Operand.value, hnumber,
    hvalue]
  exact Relation.truth_or_isNull hr value

/-! ## Intervals -/

namespace Interval

/-- An interval with bounds `lo` and `hi`, each of which may be missing, overlaps the interval.  A
bound that either of them lacks is open. -/
def Meets (n : Numerals) (lo hi : Option ℚ) (i : Interval Float) : Prop :=
  (∀ b ∈ i.high, ∀ q ∈ lo, q ≤ n.number (.ofFloat b)) ∧
    ∀ a ∈ i.low, ∀ q ∈ hi, n.number (.ofFloat a) ≤ q

instance (n : Numerals) (lo hi : Option ℚ) (i : Interval Float) : Decidable (i.Meets n lo hi) :=
  inferInstanceAs (Decidable (_ ∧ _))

section

variable {n : Numerals} {row : Sql.Row} {lowColumn highColumn : String} {lo hi : Option ℚ}
  (hlow : row lowColumn.toList = .ofNumber? lo) (hhigh : row highColumn.toList = .ofNumber? hi)

include hlow hhigh

/-- The factors for an interval with finite bounds are true if the row overlaps it, or else
false. -/
theorem evaluate_overlap {i : Interval Float} (h : ∀ x ∈ i.bounds, x.isFinite) :
    Conjunction.evaluate (Test.truthTaking n row) (overlap lowColumn highColumn i) =
      some (decide (i.Meets n lo hi)) := by
  obtain ⟨low, high⟩ := i
  have hbelow (b : Float) (hb : b ∈ high) :
      (Factor.orNull (.atMost lowColumn b) lowColumn).evaluate (Test.truthTaking n row) =
        some (decide (∀ q ∈ lo, q ≤ n.number (.ofFloat b))) :=
    Factor.evaluate_orNull_of_finite hlow (h b (List.mem_append_right _ (Option.mem_toList.2 hb)))
      rfl fun q => Relation.truth_atMost q _
  have habove (a : Float) (ha : a ∈ low) :
      (Factor.orNull (.atLeast highColumn a) highColumn).evaluate (Test.truthTaking n row) =
        some (decide (∀ q ∈ hi, n.number (.ofFloat a) ≤ q)) :=
    Factor.evaluate_orNull_of_finite hhigh (h a (List.mem_append_left _ (Option.mem_toList.2 ha)))
      rfl fun q => Relation.truth_atLeast q _
  cases high with
  | none =>
    cases low with
    | none => simp [overlap, Conjunction.evaluate, Meets]
    | some a =>
      simp [overlap, Conjunction.evaluate, Meets, Truth.and_some, habove a (Option.mem_some_self a)]
  | some b =>
    have hb := hbelow b (Option.mem_some_self b)
    cases low with
    | none => simp [overlap, Conjunction.evaluate, Meets, Truth.and_some, hb]
    | some a =>
      simp [overlap, Conjunction.evaluate, Meets, Truth.and_some, hb,
        habove a (Option.mem_some_self a)]

theorem evaluateAny_overlap {is : List (Interval Float)} (h : ∀ i ∈ is, i.Checked) :
    Factor.evaluateAny (Test.truthTaking n row)
        ((is.map (overlap lowColumn highColumn)).map fun c => [.group [c]]) =
      some (decide (∃ i ∈ is, i.Meets n lo hi)) := by
  induction is with
  | nil => rfl
  | cons i is ih =>
    obtain ⟨hi, his⟩ := List.forall_mem_cons.1 h
    -- the factors of each interval stand in a group of their own
    rw [List.map_cons, List.map_cons, Factor.evaluateAny, ih his, Conjunction.evaluate_singleton,
      Factor.evaluate, Factor.evaluateAny, Factor.evaluateAny, Truth.or_false,
      evaluate_overlap hlow hhigh hi.finite, Truth.or_some]
    simp

/-- The condition for checked intervals is true if the row overlaps one of them, or else false. -/
theorem evaluate_anyOverlap? {is : List (Interval Float)} (h : ∀ i ∈ is, i.Checked)
    {c : Conjunction} (hc : anyOverlap? lowColumn highColumn is = some c) :
    Conjunction.evaluate (Test.truthTaking n row) c =
      some (decide (∃ i ∈ is, i.Meets n lo hi)) := by
  rw [anyOverlap?, filter_overlap h] at hc
  rcases is with _ | ⟨i, _ | ⟨j, is⟩⟩
  · cases hc
  · cases hc
    rw [evaluate_overlap hlow hhigh (h i List.mem_cons_self).finite]
    simp
  · cases hc
    rw [Conjunction.evaluate_singleton, Factor.evaluate]
    exact evaluateAny_overlap hlow hhigh h

end

theorem exists_anyOverlap? {is : List (Interval Float)} (h : ∀ i ∈ is, i.Checked) (hne : is ≠ [])
    (lowColumn highColumn : String) : ∃ c, anyOverlap? lowColumn highColumn is = some c := by
  rw [anyOverlap?, filter_overlap h]
  rcases is with _ | ⟨i, _ | ⟨j, is⟩⟩
  · exact absurd rfl hne
  · exact ⟨_, rfl⟩
  · exact ⟨_, rfl⟩

end Interval

/-! ## Ranges and their intervals -/

/-- The finite double that is made of a number or a date is what the endpoint stands for. -/
theorem Endpoint.exists_amount {v : Endpoint} (hv : v.type ≠ .text) :
    ∃ x, v.amount? Binary64.toFloat = some x ∧
      (x.isFinite → ∀ (n : Numerals) (q : ℚ), v.StandsFor n q ↔ n.number (.ofFloat x) = q) := by
  cases v with
  | text s => exact absurd rfl hv
  | number y =>
    refine ⟨y.toFloat, rfl, fun hfinite n q => ?_⟩
    rw [Binary64.isFinite_toFloat] at hfinite
    rw [Binary64.ofFloat_toFloat hfinite]
    refine ⟨fun h => ?_, .number⟩
    cases h with
    | number h => exact h
  | date t =>
    refine ⟨t.mjd, rfl, fun _ n q => ⟨fun h => ?_, .date⟩⟩
    cases h with
    | date h => exact h

theorem Endpoint.StandsFor.unique {n : Numerals} {v : Endpoint} {a b : ℚ} (ha : v.StandsFor n a)
    (hb : v.StandsFor n b) : a = b := by
  cases ha with
  | number ha =>
    cases hb with
    | number hb => exact ha.symm.trans hb
  | date ha =>
    cases hb with
    | date hb => exact ha.symm.trans hb

namespace Range

/-- A range is overlapped if each bound that it has is. -/
theorem overlaps_iff_bounds {n : Numerals} {lo hi : Option ℚ} {r : Range} :
    r.Overlaps n lo hi ↔ r ≠ any ∧
      (∀ v ∈ r.high?, ∃ b, v.StandsFor n b ∧ ∀ q ∈ lo, q ≤ b) ∧
      ∀ v ∈ r.low?, ∃ a, v.StandsFor n a ∧ ∀ q ∈ hi, a ≤ q := by
  constructor
  · rintro (⟨hv, hlo, hhi⟩ | ⟨hlow, hhi⟩ | ⟨hhigh, hlo⟩ | ⟨hlow, hhigh, hlo, hhi⟩)
    · simpa [low?, high?] using ⟨⟨_, hv, hlo⟩, ⟨_, hv, hhi⟩⟩
    · simpa [low?, high?] using ⟨_, hlow, hhi⟩
    · simpa [low?, high?] using ⟨_, hhigh, hlo⟩
    · simpa [low?, high?] using ⟨⟨_, hhigh, hlo⟩, ⟨_, hlow, hhi⟩⟩
  · rintro ⟨hne, hhigh, hlow⟩
    cases r with
    | any => exact absurd rfl hne
    | single v =>
      obtain ⟨b, hb, hlo⟩ := hhigh v rfl
      obtain ⟨a, ha, hhi⟩ := hlow v rfl
      rw [ha.unique hb] at hhi
      exact .single hb hlo hhi
    | atLeast low =>
      obtain ⟨a, ha, hhi⟩ := hlow low rfl
      exact .atLeast ha hhi
    | atMost high =>
      obtain ⟨b, hb, hlo⟩ := hhigh high rfl
      exact .atMost hb hlo
    | closed low high =>
      obtain ⟨b, hb, hlo⟩ := hhigh high rfl
      obtain ⟨a, ha, hhi⟩ := hlow low rfl
      exact .closed ha hb hlo hhi

theorem not_overlaps_closed {n : Numerals} {low high : Endpoint} {b q : ℚ} {hi : Option ℚ}
    (hhigh : high.StandsFor n b) (hlt : b < q) : ¬ (closed low high).Overlaps n (some q) hi := by
  intro h
  cases h with
  | closed _ hb hlo _ =>
    rw [hb.unique hhigh] at hlo
    exact absurd (hlo q rfl) (not_le.2 hlt)

theorem not_overlaps_atLeast {n : Numerals} {low : Endpoint} {a q : ℚ} {lo : Option ℚ}
    (hlow : low.StandsFor n a) (hlt : q < a) : ¬ (atLeast low).Overlaps n lo (some q) := by
  intro h
  cases h with
  | atLeast ha hhi =>
    rw [ha.unique hlow] at hhi
    exact absurd (hhi q rfl) (not_le.2 hlt)

/-- Overlapping a range of numbers or dates is meeting its interval. -/
theorem overlaps_iff {r : Range} (htypes : ∀ v ∈ r.endpoints, v.type ≠ .text)
    (h : (Interval.ofRange Binary64.toFloat r).Checked) (n : Numerals) (lo hi : Option ℚ) :
    r.Overlaps n lo hi ↔ (Interval.ofRange Binary64.toFloat r).Meets n lo hi := by
  have hfinite : ∀ v ∈ r.endpoints, ∀ x, v.amount? Binary64.toFloat = some x → x.isFinite := by
    intro v hv x hx
    rcases mem_endpoints_iff.1 hv with hlow | hhigh
    · have hmem := Option.mem_toList.2 (Option.bind_eq_some_iff.2 ⟨v, hlow, hx⟩)
      exact h.finite x (List.mem_append_left _ hmem)
    · have hmem := Option.mem_toList.2 (Option.bind_eq_some_iff.2 ⟨v, hhigh, hx⟩)
      exact h.finite x (List.mem_append_right _ hmem)
  have hbound (bound : Option Endpoint) (hmem : ∀ v ∈ bound, v ∈ r.endpoints) (P : ℚ → Prop) :
      (∀ v ∈ bound, ∃ b, v.StandsFor n b ∧ P b) ↔
        ∀ x ∈ bound.bind (Endpoint.amount? Binary64.toFloat), P (n.number (.ofFloat x)) := by
    cases bound with
    | none => simp
    | some v =>
      have hv : v ∈ r.endpoints := hmem v rfl
      obtain ⟨x, hx, hstands⟩ := Endpoint.exists_amount (htypes v hv)
      simp [hx, hstands (hfinite v hv x hx) n]
  have hne : r ≠ any := by
    rintro rfl
    exact h.bounds_ne_nil rfl
  rw [overlaps_iff_bounds, Interval.Meets, and_iff_right hne]
  exact and_congr (hbound r.high? (fun v hv => mem_endpoints_iff.2 (.inr hv)) _)
    (hbound r.low? (fun v hv => mem_endpoints_iff.2 (.inl hv)) _)

end Range

/-! ## Queries -/

namespace CatalogQuery

variable {p : Protocol} {t : TableMapping} {c : Context} {s : ParameterSet} {q : CatalogQuery}

/-- The only constraint along an axis with intervals, if the ranges asked for are bounded. -/
theorem exists_constraint_of_bounded (hcompile : compile p t c s = .ok q) (x : IntervalAxis)
    (hp : p.hasAccess = true) {list : RangeList} (hlist : s.ranges? x.parameter = some list)
    (hne : list.ranges ≠ []) (hbounded : ∀ r ∈ list.ranges, r ≠ .any) :
    ∃ k, (∀ k', k' ∈ q.constraints ∧ k'.parameter = x.parameter ↔ k' = k) ∧
      (∀ i ∈ list.ranges.map (Interval.ofRange Binary64.toFloat), i.Checked) ∧
      Interval.anyOverlap? (t.column x.lowColumn) (t.column x.highColumn)
        (list.ranges.map (.ofRange Binary64.toFloat)) = some k.condition := by
  obtain ⟨w, hw, -⟩ := compile_parts hcompile
  obtain ⟨kind, is, hconstraint, his, hchecked⟩ := exists_bounded_of_wishes (t := t) hw x hp hlist
  have hall : list.ranges.filter (· ≠ .any) = list.ranges :=
    List.filter_eq_self.2 fun r hr => decide_eq_true (hbounded r hr)
  rw [hall] at his
  subst his
  obtain ⟨d, hd⟩ := Interval.exists_anyOverlap? hchecked (by simpa using hne)
    (t.column x.lowColumn) (t.column x.highColumn)
  rw [overlapping, hd, Option.map_some] at hconstraint
  refine ⟨⟨kind, x.parameter, d⟩, fun k' => ?_, hchecked, hd⟩
  rw [IntervalAxis.parameter, mem_constraints_iff hcompile hw, hconstraint, Option.some.injEq,
    eq_comm (b := k')]
  exact and_iff_right ((x.mem_axes_iff p).2 hp)

/-- The ranges along an axis are of numbers or dates, so that overlapping one of them is meeting
its interval. -/
theorem exists_overlaps_iff {pairs : List (String × String)}
    (hread : ParameterSet.read p pairs = .ok s) {x : IntervalAxis} {list : RangeList}
    (hlist : s.ranges? x.parameter = some list)
    (hchecked : ∀ i ∈ list.ranges.map (Interval.ofRange Binary64.toFloat), i.Checked)
    (n : Numerals) (lo hi : Option ℚ) :
    (∃ r ∈ list.ranges, r.Overlaps n lo hi) ↔
      ∃ i ∈ list.ranges.map (Interval.ofRange Binary64.toFloat), i.Meets n lo hi := by
  obtain ⟨-, hreadable, hordered, hdeclared⟩ := declared_of_ranges? hread hlist
  have htype : x.type ≠ .text := by cases x <;> decide
  simp only [List.mem_map, exists_exists_and_eq_and]
  refine exists_congr fun r => and_congr_right fun hr => Range.overlaps_iff (fun v hv => ?_)
    (hchecked _ (List.mem_map_of_mem hr)) n lo hi
  rw [hreadable.type_of_mem hordered hdeclared hr hv]
  exact htype

/-- A request for bounded ranges along an axis has one constraint there.  As its text is read, the
constraint is never unknown on a row with a number or no value in each of the two columns, whichever
way the database takes numerals: it is true just if the row overlaps one of the ranges, and so it is
true without any values. -/
theorem decides_overlap {pairs : List (String × String)}
    (hread : ParameterSet.read p pairs = .ok s) (x : IntervalAxis)
    (hlow : Identifier (t.column x.lowColumn)) (hhigh : Identifier (t.column x.highColumn))
    (hcompile : compile p t c s = .ok q) {list : RangeList}
    (hlist : s.ranges? x.parameter = some list) (hne : list.ranges ≠ [])
    (hbounded : ∀ r ∈ list.ranges, r ≠ .any) :
    ∃ k e, (∀ k', k' ∈ q.constraints ∧ k'.parameter = x.parameter ↔ k' = k) ∧
      readCondition k.text = some e ∧
      ∀ (n : Numerals) (row : Sql.Row) (lo hi : Option ℚ),
        row (t.column x.lowColumn).toList = .ofNumber? lo →
        row (t.column x.highColumn).toList = .ofNumber? hi →
        e.truthTaking n row ≠ none ∧
        (e.truthTaking n row = some true ↔ ∃ r ∈ list.ranges, r.Overlaps n lo hi) ∧
        (lo = none → hi = none → e.truthTaking n row = some true) := by
  have hp := (declared_of_ranges? hread hlist).1
  obtain ⟨k, hk, hchecked, hcondition⟩ :=
    exists_constraint_of_bounded hcompile x hp hlist hne hbounded
  have hsound : Conjunction.Sound Identifier k.condition :=
    Interval.sound_anyOverlap? hlow hhigh hcondition
  obtain ⟨es, e, hes, he, hexpresses⟩ := hsound.exists_expression
  refine ⟨k, e, hk, hes.readCondition_eq he, fun n row lo hi hlo hhi => ?_⟩
  have htruth : e.truthTaking n row = some (decide
      (∃ i ∈ list.ranges.map (Interval.ofRange Binary64.toFloat), i.Meets n lo hi)) := by
    rw [Expr.truthTaking, hexpresses, Interval.evaluate_anyOverlap? hlo hhi hchecked hcondition]
  rw [htruth, exists_overlaps_iff hread hlist hchecked]
  refine ⟨by simp, by simp, ?_⟩
  rintro rfl rfl
  obtain ⟨r, hr⟩ := List.exists_mem_of_ne_nil _ hne
  have hmeets : (Interval.ofRange Binary64.toFloat r).Meets n none none := by
    simp [Interval.Meets]
  simpa using ⟨r, hr, hmeets⟩

/-- Two bands, and a dataset between them.  Two ranges of dates, the first up to noon of the second
of January 2000, which is 51545.5, and the second from the start of 2001, which is 51910: a dataset
that begins at that noon, one between the two, and one without dates. -/
theorem decides_overlap_of_bands_and_dates :
    ∃ s q, ParameterSet.read .image [("BAND", "1/2,7/"),
        ("TIME", "2000-01-01/2000-01-02T12:00:00Z,2001-01-01/")] = .ok s ∧
      compile .image TableConfig.empty.mapping Sample.imageContext s = .ok q ∧
      (∃ k e, (∀ k', k' ∈ q.constraints ∧ k'.parameter = "BAND" ↔ k' = k) ∧
        readCondition k.text = some e ∧
        ∀ (n : Numerals) (row : Sql.Row), row "em_min".toList = .number 3 →
          row "em_max".toList = .number 6 → e.truthTaking n row = some false) ∧
      ∃ k e, (∀ k', k' ∈ q.constraints ∧ k'.parameter = "TIME" ↔ k' = k) ∧
        readCondition k.text = some e ∧
        ∀ (n : Numerals) (row : Sql.Row),
          (row "t_min".toList = .number 51545.5 → row "t_max".toList = .number 51600 →
            e.truthTaking n row = some true) ∧
          (row "t_min".toList = .number 51546 → row "t_max".toList = .number 51909 →
            e.truthTaking n row = some false) ∧
          (row "t_min".toList = .null → row "t_max".toList = .null →
            e.truthTaking n row = some true) := by
  have hcompiled : ((ParameterSet.read .image [("BAND", "1/2,7/"),
      ("TIME", "2000-01-01/2000-01-02T12:00:00Z,2001-01-01/")]).toOption.any fun s =>
        (compile .image TableConfig.empty.mapping Sample.imageContext s).toOption.any fun _ =>
          (s.ranges? "BAND").any fun bands => (s.ranges? "TIME").any fun dates =>
            bands.ranges = [.closed (.number ⟨0x3FF0000000000000⟩) (.number ⟨0x4000000000000000⟩),
              .atLeast (.number ⟨0x401C000000000000⟩)] ∧
            dates.ranges = [.closed (.date ⟨946684800, 0⟩) (.date ⟨946814400, 0⟩),
              .atLeast (.date ⟨978307200, 0⟩)]) = true := by
    decide +kernel
  obtain ⟨s, hread, hs⟩ := exists_ok_of_any hcompiled
  obtain ⟨q, hcompile, hq⟩ := exists_ok_of_any hs
  obtain ⟨bands, hbands, hrest⟩ := (Option.any_eq_true _ _).1 hq
  obtain ⟨dates, hdates, hranges⟩ := (Option.any_eq_true _ _).1 hrest
  obtain ⟨hbandRanges, hdateRanges⟩ := of_decide_eq_true hranges
  obtain ⟨k, e, hk, he, hband⟩ := decides_overlap hread .spectral (by decide) (by decide) hcompile
    hbands (by simp [hbandRanges]) (by simp [hbandRanges])
  obtain ⟨k', e', hk', he', htime⟩ := decides_overlap hread .temporal (by decide) (by decide)
    hcompile hdates (by simp [hdateRanges]) (by simp [hdateRanges])
  have htwo (n : Numerals) : (Endpoint.number ⟨0x4000000000000000⟩).StandsFor n 2 :=
    .number (by cases n <;> decide +kernel)
  have hseven (n : Numerals) : (Endpoint.number ⟨0x401C000000000000⟩).StandsFor n 7 :=
    .number (by cases n <;> decide +kernel)
  have hstart (n : Numerals) : (Endpoint.date ⟨946684800, 0⟩).StandsFor n 51544 :=
    .date (by cases n <;> decide +kernel)
  have hnoon (n : Numerals) : (Endpoint.date ⟨946814400, 0⟩).StandsFor n 51545.5 :=
    .date (by cases n <;> decide +kernel)
  have hlater (n : Numerals) : (Endpoint.date ⟨978307200, 0⟩).StandsFor n 51910 :=
    .date (by cases n <;> decide +kernel)
  refine ⟨s, q, hread, hcompile, ⟨k, e, hk, he, fun n row hlow hhigh => ?_⟩,
    k', e', hk', he', fun n row => ⟨fun hlow hhigh => ?_, fun hlow hhigh => ?_,
      fun hlow hhigh => ?_⟩⟩
  · obtain ⟨hknown, hiff, -⟩ := hband n row (some 3) (some 6) hlow hhigh
    refine Truth.eq_some_false hknown fun htrue => ?_
    obtain ⟨r, hr, hoverlaps⟩ := hiff.1 htrue
    rw [hbandRanges, List.mem_pair] at hr
    rcases hr with rfl | rfl
    · exact Range.not_overlaps_closed (htwo n) (by norm_num) hoverlaps
    · exact Range.not_overlaps_atLeast (hseven n) (by norm_num) hoverlaps
  · obtain ⟨-, hiff, -⟩ := htime n row (some 51545.5) (some 51600) hlow hhigh
    rw [hiff, hdateRanges]
    refine ⟨_, List.mem_cons_self, .closed (hstart n) (hnoon n) ?_ ?_⟩
    · exact fun _ hq => (Option.some.inj hq).ge
    · rintro _ ⟨⟩
      norm_num
  · obtain ⟨hknown, hiff, -⟩ := htime n row (some 51546) (some 51909) hlow hhigh
    refine Truth.eq_some_false hknown fun htrue => ?_
    obtain ⟨r, hr, hoverlaps⟩ := hiff.1 htrue
    rw [hdateRanges, List.mem_pair] at hr
    rcases hr with rfl | rfl
    · exact Range.not_overlaps_closed (hnoon n) (by norm_num) hoverlaps
    · exact Range.not_overlaps_atLeast (hlater n) (by norm_num) hoverlaps
  · exact (htime n row none none hlow hhigh).2.2 rfl rfl

end CatalogQuery

end SkyDiscovery
