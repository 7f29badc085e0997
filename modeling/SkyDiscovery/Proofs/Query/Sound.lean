import SkyDiscovery.Proofs.Failure
import SkyDiscovery.Query.CatalogQuery

/-!
# The shape of compiled conditions

A condition is sound when neither it nor a group or an alternative in it is empty and the columns it
compares are of a kind, which is left open.  Whatever a request asks for, the constraints compiled
for it are sound over the columns of the table, so no query has empty parentheses or a dangling
conjunction sign.

* `CatalogQuery.sound_of_constraint?`: the constraint of any axis is sound.
* `CatalogQuery.sound_of_compile`: so are the constraints of a compiled query.
* `CatalogQuery.whereText?_eq`: the text of the constraints is that of one conjunction.
-/

namespace SkyDiscovery

/-- The column that is compared. -/
def Comparison.column : Comparison → String
  | between column _ _ | atMost column _ | atLeast column _ | equalsNumber column _
  | equalsText column _ | like column _ | isNull column | isNotNull column => column

/-- No group or alternative is empty, and all columns are of the kind `P`. -/
inductive Factor.Sound (P : String → Prop) : Factor → Prop where
  | test {c : Comparison} : P c.column → Sound P (.test c)
  | group {alternatives : List (List Factor)} : alternatives ≠ [] →
      (∀ c ∈ alternatives, c ≠ []) → (∀ c ∈ alternatives, ∀ f ∈ c, Sound P f) →
      Sound P (.group alternatives)

/-- A conjunction of sound factors, at least one. -/
def Conjunction.Sound (P : String → Prop) (c : Conjunction) : Prop :=
  c ≠ [] ∧ ∀ f ∈ c, Factor.Sound P f

namespace Factor

variable {P : String → Prop}

theorem sound_group {alternatives : List (List Factor)} (hne : alternatives ≠ [])
    (h : ∀ c ∈ alternatives, Conjunction.Sound P c) : Sound P (.group alternatives) :=
  .group hne (fun c hc => (h c hc).1) fun c hc => (h c hc).2

theorem sound_singleton {f : Factor} (h : Sound P f) : Conjunction.Sound P [f] :=
  ⟨List.cons_ne_nil _ _, fun g hg => by rwa [List.mem_singleton.1 hg]⟩

theorem sound_only {c : Comparison} (h : P c.column) : Sound P (only c) := by
  refine sound_group (List.cons_ne_nil _ _) fun d hd => ?_
  rw [List.mem_singleton.1 hd]
  exact sound_singleton (.test h)

theorem sound_orNull {c : Comparison} {column : String} (h : P c.column) (hcolumn : P column) :
    Sound P (orNull c column) := by
  refine sound_group (List.cons_ne_nil _ _) fun d hd => ?_
  simp only [List.mem_cons, List.not_mem_nil, or_false] at hd
  rcases hd with rfl | rfl
  · exact sound_singleton (.test h)
  · exact sound_singleton (.test hcolumn)

theorem sound_containsAny {column : String} {texts : List String} (hne : texts ≠ [])
    (h : P column) : Sound P (containsAny column texts) := by
  refine sound_group (by simpa using hne) fun d hd => ?_
  obtain ⟨s, -, rfl⟩ := List.mem_map.1 hd
  exact sound_singleton (sound_only h)

end Factor

/-! ## Intervals -/

namespace Interval

variable {P : String → Prop}

theorem sound_overlap {lowColumn highColumn : String} (hlow : P lowColumn) (hhigh : P highColumn)
    (i : Interval Float) : ∀ f ∈ overlap lowColumn highColumn i, Factor.Sound P f := by
  intro f hf
  rcases List.mem_append.1 hf with hf | hf
  · obtain ⟨x, -, rfl⟩ := List.mem_map.1 hf
    exact Factor.sound_orNull hlow hlow
  · obtain ⟨x, -, rfl⟩ := List.mem_map.1 hf
    exact Factor.sound_orNull hhigh hhigh

theorem sound_anyOverlap? {lowColumn highColumn : String} (hlow : P lowColumn)
    (hhigh : P highColumn) {is : List (Interval Float)} {c : Conjunction}
    (h : anyOverlap? lowColumn highColumn is = some c) : Conjunction.Sound P c := by
  have hgroups : ∀ d ∈ (is.map (overlap lowColumn highColumn)).filter (fun c => !c.isEmpty),
      Conjunction.Sound P d := by
    intro d hd
    rw [List.mem_filter, List.mem_map] at hd
    obtain ⟨⟨i, -, rfl⟩, hne⟩ := hd
    exact ⟨by simpa using hne, sound_overlap hlow hhigh i⟩
  unfold anyOverlap? at h
  split at h
  · exact absurd h (by simp)
  · next d hd =>
    obtain rfl : d = c := by simpa using h
    exact hgroups d (by rw [hd]; exact List.mem_cons_self)
  · next hnil _ =>
    rw [Option.some.injEq] at h
    subst h
    refine Factor.sound_singleton (Factor.sound_group (by simpa using hnil) fun d hd => ?_)
    obtain ⟨e, he, rfl⟩ := List.mem_map.1 hd
    refine Factor.sound_singleton (Factor.sound_group (List.cons_ne_nil _ _) fun x hx => ?_)
    rw [List.mem_singleton.1 hx]
    exact hgroups e he

end Interval

/-! ## Constraints -/

namespace CatalogQuery

/-- The canonical names of the columns that constraints compare. -/
def comparedColumns : List String :=
  ["ra", "dec", "s_ra", "s_dec", "em_min", "em_max", "t_min", "t_max", "pol_states",
    "s_resolution", "em_resolution", "em_res_power", "id", "obs_collection", "s_calib_status",
    "o_calib_status", "em_calib_status", "im_naxes"]

variable {P : String → Prop} {p : Protocol} {t : TableMapping}

/-- The columns that constraints compare are of a kind if the table gives them such names and they
are so by their own. -/
theorem forall_column (hnames : ∀ name ∈ comparedColumns, P name)
    (h : ∀ canonical column, t.resolve canonical = some column → P column) :
    ∀ name ∈ comparedColumns, P (t.column name) := by
  intro name hname
  rw [TableMapping.column]
  cases hresolve : t.resolve name with
  | none => exact hnames name hname
  | some column => exact h name column hresolve

theorem lonRanges_ne_nil {α : Type} [Scalar α] (b : SkyBox α) : b.lonRanges ≠ [] := by
  unfold SkyBox.lonRanges
  split
  · exact List.cons_ne_nil _ _
  · split
    · exact List.cons_ne_nil _ _
    · split <;> exact List.cons_ne_nil _ _

theorem sound_spatial (hP : ∀ name ∈ comparedColumns, P (t.column name)) (r : Region Float) :
    Conjunction.Sound P (spatial p t r).condition := by
  have hcolumns : P (positionColumns p t).1 ∧ P (positionColumns p t).2 := by
    unfold positionColumns
    split
    · exact ⟨hP _ (by decide), hP _ (by decide)⟩
    · exact ⟨hP _ (by decide), hP _ (by decide)⟩
  obtain ⟨hlon, hlat⟩ := hcolumns
  have hlatFactor : Factor.Sound P
      (.only (.between (positionColumns p t).2 r.coarseBox.latMin r.coarseBox.latMax)) :=
    Factor.sound_only hlat
  have hlonFactor : Factor.Sound P
      (.group (r.coarseBox.lonRanges.map fun x =>
        [.test (.between (positionColumns p t).1 x.1 x.2)])) := by
    refine Factor.sound_group ?_ fun c hc => ?_
    · simpa using lonRanges_ne_nil r.coarseBox
    · obtain ⟨x, -, rfl⟩ := List.mem_map.1 hc
      exact Factor.sound_singleton (.test hlon)
  unfold spatial
  by_cases hconstrains : r.coarseBox.constrainsLon
  · simp only [hconstrains, if_true]
    refine ⟨List.cons_ne_nil _ _, fun f hf => ?_⟩
    simp only [List.mem_cons, List.not_mem_nil, or_false] at hf
    rcases hf with rfl | rfl
    · exact hlonFactor
    · exact hlatFactor
  · simp only [hconstrains, Bool.false_eq_true, if_false]
    exact Factor.sound_singleton hlatFactor

theorem sound_overlapping {kind : ConstraintKind} {parameter lowColumn highColumn : String}
    (hlow : P lowColumn) (hhigh : P highColumn) {is : List (Interval Float)} {k : Constraint}
    (h : overlapping kind parameter lowColumn highColumn is = some k) :
    Conjunction.Sound P k.condition := by
  obtain ⟨c, hc, rfl⟩ := Option.map_eq_some_iff.1 h
  exact Interval.sound_anyOverlap? hlow hhigh hc

theorem sound_minimum {s : ParameterSet} {parameter canonical : String}
    (hcolumn : P (t.column canonical)) {k : Constraint}
    (h : minimum t s parameter canonical = some k) : Conjunction.Sound P k.condition := by
  obtain ⟨x, -, rfl⟩ := Option.map_eq_some_iff.1 h
  exact Factor.sound_singleton (Factor.sound_orNull hcolumn hcolumn)

theorem sound_calibration {s : ParameterSet} {parameter : String} {a : Axis}
    (hP : ∀ name ∈ comparedColumns, P (t.column name)) {k : Constraint}
    (h : calibration t s parameter a = some k) : Conjunction.Sound P k.condition := by
  obtain ⟨level, -, h⟩ := Option.bind_eq_some_iff.1 h
  obtain ⟨canonical, hcanonical, h⟩ := Option.bind_eq_some_iff.1 h
  have hcolumn : P (t.column canonical) := by
    refine hP _ ?_
    cases a <;> simp [Axis.calibrationColumn?] at hcanonical <;> subst hcanonical <;> decide
  split at h
  · exact absurd h (by simp)
  · next hne =>
    rw [Option.some.injEq] at h
    subst h
    refine Factor.sound_singleton (Factor.sound_group (by simpa using hne) fun c hc => ?_)
    obtain ⟨w, -, rfl⟩ := List.mem_map.1 hc
    exact Factor.sound_singleton (.test hcolumn)

theorem sound_polarization {s : ParameterSet} (hcolumn : P (t.column "pol_states"))
    {k : Constraint} (h : polarizationConstraint t s = some k) :
    Conjunction.Sound P k.condition := by
  obtain ⟨raw, -, h⟩ := Option.bind_eq_some_iff.1 h
  split at h
  · rw [Option.some.injEq] at h
    subst h
    exact Factor.sound_singleton (Factor.sound_only hcolumn)
  · split at h
    · exact absurd h (by simp)
    · next hne =>
      rw [Option.some.injEq] at h
      subst h
      exact Factor.sound_singleton (Factor.sound_containsAny hne hcolumn)

theorem sound_collection {s : ParameterSet} (hcolumn : P (t.column "obs_collection"))
    {k : Constraint} (h : collection t s = some k) : Conjunction.Sound P k.condition := by
  obtain ⟨raw, -, h⟩ := Option.bind_eq_some_iff.1 h
  split at h
  · exact absurd h (by simp)
  · split at h
    · exact absurd h (by simp)
    · next hne =>
      rw [Option.some.injEq] at h
      subst h
      exact Factor.sound_singleton (Factor.sound_containsAny hne hcolumn)

theorem sound_datasetShape {s : ParameterSet} (hcolumn : P (t.column "im_naxes"))
    {k : Constraint} (h : datasetShape t s = some k) : Conjunction.Sound P k.condition := by
  obtain ⟨shape, -, h⟩ := Option.bind_eq_some_iff.1 h
  split at h
  · rw [Option.some.injEq] at h
    subst h
    exact Factor.sound_singleton (Factor.sound_only hcolumn)
  · split at h
    · rw [Option.some.injEq] at h
      subst h
      exact Factor.sound_singleton (Factor.sound_only hcolumn)
    · exact absurd h (by simp)

theorem sound_of_constraint? (hP : ∀ name ∈ comparedColumns, P (t.column name))
    {s : ParameterSet} {w : Wishes} {a : Axis} {k : Constraint}
    (h : constraint? p t s w a = some k) : Conjunction.Sound P k.condition := by
  cases a with
  | spatial =>
    obtain ⟨r, -, rfl⟩ := Option.map_eq_some_iff.1 h
    exact sound_spatial hP r
  | spectral => exact sound_overlapping (hP _ (by decide)) (hP _ (by decide)) h
  | temporal => exact sound_overlapping (hP _ (by decide)) (hP _ (by decide)) h
  | polarization => exact sound_polarization (hP _ (by decide)) h
  | spatialResolution | spectralResolution | resolvingPower =>
    exact sound_minimum (hP _ (by decide)) h
  | identifier =>
    obtain ⟨id, -, rfl⟩ := Option.map_eq_some_iff.1 h
    exact Factor.sound_singleton (Factor.sound_only (hP _ (by decide)))
  | collection => exact sound_collection (hP _ (by decide)) h
  | astrometricCalibration | fluxCalibration | wavelengthCalibration => exact sound_calibration hP h
  | datasetShape => exact sound_datasetShape (hP _ (by decide)) h

/-! ## Compiled queries -/

/-- What a compiled query consists of. -/
theorem compile_parts {s : ParameterSet} {c : Context} {q : CatalogQuery}
    (h : compile p t c s = .ok q) :
    ∃ w, wishes p s = .ok w ∧ c.requireTable = .ok q.table ∧
      recordLimit s c = .ok q.recordCap ∧
      q.constraints = p.axes.filterMap (constraint? p t s w) := by
  obtain ⟨table, htable, h⟩ := exists_of_bind h
  obtain ⟨cap, hcap, h⟩ := exists_of_bind h
  obtain ⟨w, hw, h⟩ := exists_of_bind h
  cases h
  exact ⟨w, hw, htable, hcap, rfl⟩

/-- What the wishes of a request are read from. -/
theorem wishes_parts {s : ParameterSet} {w : Wishes} (h : wishes p s = .ok w) :
    region? p s = .ok w.region ∧ intervals p .spectral s "BAND" = .ok w.band ∧
      intervals p .temporal s "TIME" = .ok w.time := by
  obtain ⟨region, hregion, h⟩ := exists_of_bind h
  obtain ⟨band, hband, h⟩ := exists_of_bind h
  obtain ⟨time, htime, h⟩ := exists_of_bind h
  cases h
  exact ⟨hregion, hband, htime⟩

/-- What a compiled query takes over from the wishes of the request. -/
theorem searches_of_compile {s : ParameterSet} {c : Context} {q : CatalogQuery} {w : Wishes}
    (h : compile p t c s = .ok q) (hw : wishes p s = .ok w) :
    q.region = w.region ∧ q.band = w.band.head? ∧ q.time = w.time.head? := by
  obtain ⟨table, -, h⟩ := exists_of_bind h
  obtain ⟨cap, -, h⟩ := exists_of_bind h
  obtain ⟨w', hw', h⟩ := exists_of_bind h
  cases hw.symm.trans hw'
  cases h
  exact ⟨rfl, rfl, rfl⟩

/-- What a request asks for is read off its ranges and numbers.  Only a cone search looks for a
radius that is set but no number. -/
theorem wishes_congr {s s' : ParameterSet}
    (hranges : ∀ name ∈ ["POS", "SIZE", "BAND", "TIME"], s.ranges? name = s'.ranges? name)
    (hfloat : ∀ name ∈ ["RA", "DEC", "SR"], s.float? name = s'.float? name)
    (hset : p = .cone → s.isSet "SR" = s'.isSet "SR") : wishes p s = wishes p s' := by
  have hcenter : center? p s = center? p s' := by
    rw [center?, center?, hranges "POS" (by simp), hfloat "RA" (by simp), hfloat "DEC" (by simp)]
    by_cases hp : p = .cone
    · simp only [if_pos hp, hset hp]
    · simp only [if_neg hp]
  simp only [wishes, region?, hcenter, halfWidths, hranges "SIZE" (by simp), hfloat "SR" (by simp),
    intervals, Interval.ofParameter, hranges "BAND" (by simp), hranges "TIME" (by simp)]

theorem sound_of_compile (hP : ∀ name ∈ comparedColumns, P (t.column name)) {s : ParameterSet}
    {c : Context} {q : CatalogQuery} (h : compile p t c s = .ok q) :
    ∀ k ∈ q.constraints, Conjunction.Sound P k.condition := by
  obtain ⟨w, -, -, -, hconstraints⟩ := compile_parts h
  intro k hk
  rw [hconstraints, List.mem_filterMap] at hk
  obtain ⟨a, -, ha⟩ := hk
  exact sound_of_constraint? hP ha

end CatalogQuery

/-! ## Joining conjunctions -/

theorem Conjunction.restText_append (c d : List Factor) :
    Conjunction.restText (c ++ d) = Conjunction.restText c ++ Conjunction.restText d := by
  induction c with
  | nil => simp [Conjunction.restText]
  | cons f c ih => simp [Conjunction.restText, ih, String.append_assoc]

theorem Conjunction.text_append {c d : List Factor} (hc : c ≠ []) (hd : d ≠ []) :
    Conjunction.text (c ++ d) = Conjunction.text c ++ " AND " ++ Conjunction.text d := by
  obtain ⟨f, c, rfl⟩ := List.exists_cons_of_ne_nil hc
  obtain ⟨g, d, rfl⟩ := List.exists_cons_of_ne_nil hd
  simp [Conjunction.text, Conjunction.restText, Conjunction.restText_append, String.append_assoc]

theorem Conjunction.text_flatten {cs : List (List Factor)} (h : ∀ c ∈ cs, c ≠ []) :
    " AND ".intercalate (cs.map Conjunction.text) = Conjunction.text cs.flatten := by
  induction cs with
  | nil => rfl
  | cons c cs ih =>
    have hrest := fun d hd => h d (List.mem_cons_of_mem c hd)
    cases cs with
    | nil => simp
    | cons d cs =>
      have hd : (d :: cs).flatten ≠ [] := by
        simp [h d (by simp)]
      rw [List.flatten_cons, Conjunction.text_append (h c List.mem_cons_self) hd, ← ih hrest]
      simp [String.intercalate_cons_cons]

namespace CatalogQuery

variable {P : String → Prop} {q : CatalogQuery}

theorem sound_condition (h : ∀ k ∈ q.constraints, Conjunction.Sound P k.condition)
    (hne : q.constraints ≠ []) : Conjunction.Sound P q.condition := by
  obtain ⟨k, hk⟩ := List.exists_mem_of_ne_nil _ hne
  refine ⟨fun hempty => ?_, fun f hf => ?_⟩
  · exact (h k hk).1 (List.flatMap_eq_nil_iff.1 hempty k hk)
  · obtain ⟨m, hm, hf⟩ := List.mem_flatMap.1 hf
    exact (h m hm).2 f hf

/-- The constraints of a query with sound ones read as a single conjunction. -/
theorem whereText?_eq
    (h : ∀ k ∈ q.constraints, Conjunction.Sound P k.condition) (hne : q.constraints ≠ []) :
    q.whereText? = some (Conjunction.text q.condition) := by
  have hconditions : ∀ c ∈ q.constraints.map Constraint.condition, c ≠ [] := by
    intro c hc
    obtain ⟨k, hk, rfl⟩ := List.mem_map.1 hc
    exact (h k hk).1
  rw [whereText?, if_neg (by simpa using hne), condition, List.flatMap_def,
    ← Conjunction.text_flatten hconditions, List.map_map]
  rfl

theorem whereText?_of_nil (h : q.constraints = []) : q.whereText? = none := by
  rw [whereText?, h, List.isEmpty_nil, if_pos rfl]

theorem text_of_nil (hcap : 0 < q.recordCap) (h : q.constraints = []) :
    q.text = "SELECT * FROM " ++ q.table := by
  rw [text, if_neg (by omega), whereText?_of_nil h]

theorem text_of_sound (hcap : 0 < q.recordCap)
    (h : ∀ k ∈ q.constraints, Conjunction.Sound P k.condition) (hne : q.constraints ≠ []) :
    q.text = "SELECT * FROM " ++ q.table ++ " WHERE " ++ Conjunction.text q.condition := by
  rw [text, if_neg (by omega), whereText?_eq h hne]

end CatalogQuery

end SkyDiscovery
