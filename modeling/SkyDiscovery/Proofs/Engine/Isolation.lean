import SkyDiscovery.Proofs.Engine.Visit

/-!
# Cutouts apart from each other

A cutout task decides about the virtual record of its dataset and about nothing else.  Two runs that
differ in the task alone make the same visits; a visit that is not virtual makes the same record in
both, and so does a virtual one of a dataset for which the tasks answer alike.

* `recordOf_congr`: making a record depends on the answer for its own dataset only.
* `map_failure?_walk`: where the locator does not fail, the task has no part in the failures of a
  run.
* `process_isolates_cutouts`: two runs that do not reach the limit differ in virtual records only.
-/

namespace SkyDiscovery

/-- A cutout task. -/
abbrev CutoutTask := String → CutoutRequest → Except Failure (Option Keywords)

/-- The locator fails for no dataset. -/
def NeverFails (locate : String → Except Failure (Option String)) : Prop :=
  ∀ id, ∃ path?, locate id = .ok path?

theorem NeverFails.failsOnly {locate : String → Except Failure (Option String)}
    (h : NeverFails locate) (P : Failure → Prop) (id : String) : FailsOnly P (locate id) := by
  obtain ⟨path?, hpath⟩ := h id
  rw [hpath]
  exact failsOnly_ok _

namespace Synthesizer

theorem synthesize_publisherId {z : Synthesizer} {row : Row} {v : Variant} {made : Synthesized}
    {id : String} (h : z.synthesize row v = .ok made) (hid : made.publisherId = some id) :
    z.publisherId row = .ok id := by
  unfold synthesize at h
  split at h
  · obtain ⟨id', hid', h⟩ := exists_of_bind h
    obtain ⟨r, -, h⟩ := exists_of_bind h
    cases h
    cases hid
    exact hid'
  · obtain ⟨r, -, h⟩ := exists_of_bind h
    cases h
    cases hid

end Synthesizer

theorem Editor.edit_congr {locate : String → Except Failure (Option String)}
    {request : CutoutRequest} {compute compute' : CutoutTask} {id : String}
    (h : ∀ path, locate id = .ok (some path) →
      compute path (request.forDataset id) = compute' path (request.forDataset id))
    (d : FieldDirectory) (r : Record) :
    edit ⟨⟨locate, compute⟩, request⟩ d r id = edit ⟨⟨locate, compute'⟩, request⟩ d r id := by
  unfold edit
  rcases hl : locate id with f | _ | path
  · simp only [hl]
  · simp only [hl]
  · simp only [hl, h path hl]

namespace Expander

variable {z : Synthesizer} {locate : String → Except Failure (Option String)}
  {request : CutoutRequest} {association : Option String} {row : Row} {v : Variant}

/-- The making of a record depends on the task by its answer for the dataset of the record. -/
theorem recordOf_congr {compute compute' : CutoutTask}
    (h : ∀ id path, z.publisherId row = .ok id → locate id = .ok (some path) →
      compute path (request.forDataset id) = compute' path (request.forDataset id)) :
    recordOf z (some ⟨⟨locate, compute⟩, request⟩) association row v =
      recordOf z (some ⟨⟨locate, compute'⟩, request⟩) association row v := by
  unfold recordOf
  rcases hz : z.synthesize row v with f | made
  · rfl
  · dsimp only
    rcases hid : made.publisherId with _ | id
    · rfl
    · have hanswer := fun path => h id path (Synthesizer.synthesize_publisherId hz hid)
      simp only [complete, Editor.edit_congr hanswer]

/-- Where the locator does not fail, only the synthesis of a record does. -/
theorem recordOf_eq_error_iff (hlocate : NeverFails locate) (compute : CutoutTask) (f : Failure) :
    (recordOf z (some ⟨⟨locate, compute⟩, request⟩) association row v).value = .error f ↔
      z.synthesize row v = .error f := by
  unfold recordOf
  rcases hz : z.synthesize row v with g | made
  · simp
  · simp only [reduceCtorEq, iff_false]
    have hservice : ∀ e ∈ (some ⟨⟨locate, compute⟩, request⟩ : Option Editor), ∀ id,
        FailsOnly (fun _ => False) (e.service.locate id) := by
      intro e he
      cases he
      exact hlocate.failsOnly _
    exact complete_failsOnly hservice _ _ _ _ f

end Expander

namespace Engine

/-- The pipeline with a task for cutouts. -/
def Pipeline.withTask (l : Pipeline) (locate : String → Except Failure (Option String))
    (request : CutoutRequest) (compute : CutoutTask) : Pipeline :=
  { l with editor := some ⟨⟨locate, compute⟩, request⟩ }

/-- The first failure of steps, unless the limit is reached before. -/
theorem follow_failed_iff_of_not_limited {room : Nat} {steps : List Step}
    (h : (follow room steps).2 ≠ .limited) (f : Failure) :
    (follow room steps).2 = .failed f ↔ steps.findSome? Step.failure? = some f := by
  fun_induction follow room steps with
  | case1 => simp
  | case2 => simp [List.findSome?_cons, Step.failure?]
  | case3 => exact absurd rfl h
  | case4 room made rest g hg => simp [Step.failure?_of_error hg]
  | case5 room made rest hr ih =>
    simp [Step.failure?_of_ok hr, ih h]
  | case6 room made rest r hr ih =>
    simp [Step.failure?_of_ok hr, ih h]

theorem Step.failure?_variant_eq_some_iff {made : Logged (Except Failure (Option Record))}
    {f : Failure} : (Step.variant made).failure? = some f ↔ made.value = .error f := by
  obtain ⟨events, g | r⟩ := made <;> simp [Step.failure?]

/-! ## Pipelines that differ in the task -/

namespace Pipeline

variable (l : Pipeline) {locate : String → Except Failure (Option String)} (request : CutoutRequest)
  (compute compute' : CutoutTask)

theorem visits_withTask (drawn : Nat) (items : List CursorItem) :
    (l.withTask locate request compute).visits drawn items = l.visits drawn items := by
  induction items generalizing drawn with
  | nil => rfl
  | cons item rest ih =>
    rcases item with f | row
    · exact ih drawn
    · unfold visits
      rw [ih, ih]
      rfl

/-- The task has no part in the failures of an item. -/
theorem map_failure?_steps (hlocate : NeverFails locate) (drawn : Nat) (item : CursorItem) :
    ((l.withTask locate request compute).steps drawn item).map Step.failure? =
      ((l.withTask locate request compute').steps drawn item).map Step.failure? := by
  rcases item with f | row
  · rfl
  · by_cases h : l.admits row
    · have hwith : ∀ task, (l.withTask locate request task).admits row = true := fun _ => h
      simp only [steps, hwith, if_true, variantSteps, List.map_map]
      refine List.map_congr_left fun v _ => Option.ext fun f => ?_
      simp only [Function.comp_apply, Step.failure?_variant_eq_some_iff]
      exact (Expander.recordOf_eq_error_iff hlocate compute f).trans
        (Expander.recordOf_eq_error_iff hlocate compute' f).symm
    · have hwith : ∀ task, ¬ (l.withTask locate request task).admits row = true := fun _ => h
      simp only [steps, if_neg (hwith _)]

theorem map_failure?_walk (hlocate : NeverFails locate) (drawn : Nat) (items : List CursorItem) :
    ((l.withTask locate request compute).walk drawn items).flatten.map Step.failure? =
      ((l.withTask locate request compute').walk drawn items).flatten.map Step.failure? := by
  induction items generalizing drawn with
  | nil => rfl
  | cons item rest ih =>
    simp only [walk, List.flatten_cons, List.map_append]
    rw [l.map_failure?_steps request compute compute' hlocate]
    exact congrArg _ (ih _)

/-- A visit that is not virtual makes the same record whatever the task. -/
theorem record?_withTask_of_archival {v : Visit} (h : v.variant.product ≠ .virtual) :
    (l.withTask locate request compute).record? v =
      (l.withTask locate request compute').record? v := by
  simp only [record?, recordOf, withTask, Expander.recordOf_archival _ (some _) _ _ h]

/-- A visit makes the same record where the tasks answer alike for its dataset. -/
theorem record?_withTask_congr {v : Visit}
    (h : ∀ id path, l.synthesizer.publisherId v.row = .ok id → locate id = .ok (some path) →
      compute path (request.forDataset id) = compute' path (request.forDataset id)) :
    (l.withTask locate request compute).record? v =
      (l.withTask locate request compute').record? v := by
  have hrecord : (l.withTask locate request compute).recordOf v =
      (l.withTask locate request compute').recordOf v := Expander.recordOf_congr h
  rw [record?, record?, hrecord]

end Pipeline

/-- Two responses to the same visits that were made with different tasks for cutouts. -/
structure Isolated (l : Pipeline) (locate : String → Except Failure (Option String))
    (request : CutoutRequest) (compute compute' : CutoutTask) (vs : List Visit)
    (r r' : Response) : Prop where
  archival : r.records.filter (fun a => a.product ≠ .virtual) =
    r'.records.filter (fun a => a.product ≠ .virtual)
  scanned : r.stats.rowsScanned = r'.stats.rowsScanned
  matched : r.stats.rowsMatched = r'.stats.rowsMatched
  counted : r.stats.recordsEmitted + r.stats.virtualDiscarded =
    r'.stats.recordsEmitted + r'.stats.virtualDiscarded
  /-- The records are those of the visits in turn. -/
  records : r.records = vs.filterMap (l.withTask locate request compute).record? ∧
    r'.records = vs.filterMap (l.withTask locate request compute').record?
  /-- A visit to a dataset for which the tasks answer alike has the same record in both, or none. -/
  virtual : ∀ v ∈ vs, (∀ id path, l.synthesizer.publisherId v.row = .ok id →
      locate id = .ok (some path) →
      compute path (request.forDataset id) = compute' path (request.forDataset id)) →
    (l.withTask locate request compute).record? v = (l.withTask locate request compute').record? v

/-- Records that are not virtual come of visits in which the task has no part. -/
theorem filter_records_withTask (l : Pipeline)
    (locate : String → Except Failure (Option String)) (request : CutoutRequest)
    (compute compute' : CutoutTask) (vs : List Visit) :
    (vs.filterMap (l.withTask locate request compute).record?).filter
        (fun a => a.product ≠ .virtual) =
      (vs.filterMap (l.withTask locate request compute').record?).filter
        (fun a => a.product ≠ .virtual) := by
  rw [List.filter_filterMap, List.filter_filterMap]
  congr 1
  funext v
  by_cases hv : v.variant.product = .virtual
  · have hnone : ∀ task, Option.filter (fun a => decide (a.product ≠ .virtual))
        ((l.withTask locate request task).record? v) = none := by
      intro task
      rw [Option.filter_eq_none_iff]
      intro a ha
      simp [Pipeline.record?_product ha, hv]
    rw [hnone, hnone]
  · rw [l.record?_withTask_of_archival request compute compute' hv]

/-- A run that reaches the limit says so. -/
theorem overflow_of_limited (g : Engine) (q : CatalogQuery) (s : ParameterSet) (d : FieldDirectory)
    (items : List CursorItem) (hmeta : q.isMetadataOnly = false)
    (h : ∀ e ∈ (g.pipeline q s d).editor, ∀ id, FailsOnly Failure.NotLimit (e.service.locate id))
    (hlimited : (follow q.recordCap ((g.pipeline q s d).walk 0 items).flatten).2 = .limited) :
    ∃ r, (g.process q s d items).value = .ok r ∧ r.overflow = true := by
  obtain ⟨hyields, -⟩ := takeRows_follow (g.pipeline q s d) h items
    ⟨⟨.empty q.recordCap, 0⟩, 0, 0, 0⟩
  simp only [Sink.empty, Sink.size, List.length_nil, Nat.sub_zero] at hyields
  simp only [process, hmeta, Bool.false_eq_true, if_false, Logged.value_bind, Sink.empty]
  rcases hf : follow q.recordCap ((g.pipeline q s d).walk 0 items).flatten with ⟨rs, ending⟩
  rw [hf] at hyields hlimited
  obtain rfl : ending = .limited := hlimited
  obtain ⟨p, hp, -⟩ := hyields
  rw [hp]
  exact ⟨_, rfl, rfl⟩

/-- A run that does not reach the limit fails with the first failure of its steps. -/
theorem process_eq_error_iff {g : Engine} {q : CatalogQuery} {s : ParameterSet} {d : FieldDirectory}
    {items : List CursorItem} (hmeta : q.isMetadataOnly = false)
    (h : ∀ e ∈ (g.pipeline q s d).editor, ∀ id, FailsOnly Failure.NotLimit (e.service.locate id))
    (hroom : ∀ r, (g.process q s d items).value = .ok r → r.overflow = false) (f : Failure) :
    (g.process q s d items).value = .error f ↔
      ((g.pipeline q s d).walk 0 items).flatten.findSome? Step.failure? = some f := by
  have hcap : 1 ≤ q.recordCap := by
    simp only [CatalogQuery.isMetadataOnly, beq_eq_false_iff_ne] at hmeta
    omega
  have hfollow := (process_follow g q s d items hcap h).1
  rw [hfollow.error_iff, follow_failed_iff_of_not_limited]
  intro hlimited
  obtain ⟨r, hr, hoverflow⟩ := overflow_of_limited g q s d items hmeta h hlimited
  rw [hroom r hr] at hoverflow
  cases hoverflow

/-- A run that does not reach the limit makes all visits of what it reads. -/
theorem process_complete {g : Engine} {q : CatalogQuery} {s : ParameterSet} {d : FieldDirectory}
    {items : List CursorItem} {r : Response}
    (h : ∀ e ∈ (g.pipeline q s d).editor, ∀ id, FailsOnly Failure.NotLimit (e.service.locate id))
    (hrun : (g.process q s d items).value = .ok r) (hroom : r.overflow = false) :
    let read := if q.isMetadataOnly then [] else items
    r.records = ((g.pipeline q s d).visits 0 read).filterMap (g.pipeline q s d).record? ∧
      r.stats.rowsScanned = read.length ∧
      r.stats.rowsMatched = ((g.pipeline q s d).admittedRows read).length ∧
      r.stats.recordsEmitted + r.stats.virtualDiscarded =
        ((g.pipeline q s d).visits 0 read).length := by
  obtain ⟨after, overflow, vs, rfl, htally⟩ := exists_tally_of_process h hrun
  obtain ⟨rfl, hreads⟩ := htally.finished hroom
  rw [htally.records_respond, htally.stats_respond, hreads, List.take_length, ← Pipeline.length_eq]
  exact ⟨rfl, rfl, rfl, rfl⟩

/-! ## Two runs -/

section

variable {g : Engine} {q : CatalogQuery} {s : ParameterSet} {d : FieldDirectory}
  {items : List CursorItem} {locate : String → Except Failure (Option String)}
  {compute compute' : CutoutTask}

theorem withCutouts_failsOnly (hlocate : NeverFails locate) (task : CutoutTask) :
    ∀ e ∈ ((g.withCutouts ⟨locate, task⟩).pipeline q s d).editor, ∀ id,
      FailsOnly Failure.NotLimit (e.service.locate id) := by
  intro e he
  cases he
  exact hlocate.failsOnly _

theorem pipeline_withCutouts (task : CutoutTask) :
    (g.withCutouts ⟨locate, task⟩).pipeline q s d =
      (g.pipeline q s d).withTask locate (.ofQuery q) task :=
  rfl

/-- The task has no part in the failure of a run. -/
theorem process_error_iff_of_tasks (hlocate : NeverFails locate)
    (hroom : ∀ r, ((g.withCutouts ⟨locate, compute⟩).process q s d items).value = .ok r →
      r.overflow = false)
    (hroom' : ∀ r, ((g.withCutouts ⟨locate, compute'⟩).process q s d items).value = .ok r →
      r.overflow = false) (f : Failure) :
    ((g.withCutouts ⟨locate, compute⟩).process q s d items).value = .error f ↔
      ((g.withCutouts ⟨locate, compute'⟩).process q s d items).value = .error f := by
  cases hmeta : q.isMetadataOnly with
  | true =>
    have hcap : q.recordCap = 0 := by simpa [CatalogQuery.isMetadataOnly] using hmeta
    obtain ⟨-, r, hr, -⟩ := process_metadata (g.withCutouts ⟨locate, compute⟩) q s d items hcap
    obtain ⟨-, r', hr', -⟩ := process_metadata (g.withCutouts ⟨locate, compute'⟩) q s d items hcap
    rw [hr, hr']
    simp
  | false =>
    have hwalk :=
      (g.pipeline q s d).map_failure?_walk (.ofQuery q) compute compute' hlocate 0 items
    have hfirst := congrArg (List.findSome? id) hwalk
    rw [List.findSome?_map, List.findSome?_map] at hfirst
    rw [process_eq_error_iff hmeta (withCutouts_failsOnly hlocate compute) hroom,
      process_eq_error_iff hmeta (withCutouts_failsOnly hlocate compute') hroom',
      pipeline_withCutouts, pipeline_withCutouts]
    exact iff_of_eq (congrArg (· = some f) hfirst)

/-- Two responses that were not cut short differ in virtual records only. -/
theorem isolated_of_process (hlocate : NeverFails locate) {r r' : Response}
    (hr : ((g.withCutouts ⟨locate, compute⟩).process q s d items).value = .ok r)
    (hr' : ((g.withCutouts ⟨locate, compute'⟩).process q s d items).value = .ok r')
    (hroom : r.overflow = false) (hroom' : r'.overflow = false) :
    Isolated (g.pipeline q s d) locate (.ofQuery q) compute compute'
      ((g.pipeline q s d).visits 0 (if q.isMetadataOnly then [] else items)) r r' := by
  obtain ⟨hrecords, hscanned, hmatched, hcounted⟩ :=
    process_complete (withCutouts_failsOnly hlocate compute) hr hroom
  obtain ⟨hrecords', hscanned', hmatched', hcounted'⟩ :=
    process_complete (withCutouts_failsOnly hlocate compute') hr' hroom'
  rw [pipeline_withCutouts, Pipeline.visits_withTask] at hrecords hrecords' hcounted hcounted'
  constructor
  case archival =>
    rw [hrecords, hrecords']
    exact filter_records_withTask _ _ _ _ _ _
  case scanned => rw [hscanned, hscanned']
  case matched => exact hmatched.trans hmatched'.symm
  case counted => rw [hcounted, hcounted']
  case records => exact ⟨hrecords, hrecords'⟩
  case virtual =>
    exact fun v _ hsame => (g.pipeline q s d).record?_withTask_congr _ compute compute' hsame

end

/-- Two runs with different tasks for cutouts, neither of which reaches the limit, fail alike or
differ in virtual records only. -/
theorem process_isolates_cutouts (g : Engine) (q : CatalogQuery) (s : ParameterSet)
    (d : FieldDirectory) (items : List CursorItem)
    (locate : String → Except Failure (Option String)) (compute compute' : CutoutTask)
    (hlocate : NeverFails locate)
    (hroom : ∀ r, ((g.withCutouts ⟨locate, compute⟩).process q s d items).value = .ok r →
      r.overflow = false)
    (hroom' : ∀ r, ((g.withCutouts ⟨locate, compute'⟩).process q s d items).value = .ok r →
      r.overflow = false) :
    (∀ f, ((g.withCutouts ⟨locate, compute⟩).process q s d items).value = .error f ↔
      ((g.withCutouts ⟨locate, compute'⟩).process q s d items).value = .error f) ∧
    ∀ r r', ((g.withCutouts ⟨locate, compute⟩).process q s d items).value = .ok r →
      ((g.withCutouts ⟨locate, compute'⟩).process q s d items).value = .ok r' →
      Isolated (g.pipeline q s d) locate (.ofQuery q) compute compute'
        ((g.pipeline q s d).visits 0 (if q.isMetadataOnly then [] else items)) r r' := by
  constructor
  · exact process_error_iff_of_tasks hlocate hroom hroom'
  · intro r r' hr hr'
    exact isolated_of_process hlocate hr hr' (hroom r hr) (hroom' r' hr')

/-- Of two datasets the tasks answer alike for the first, of which neither has a cutout. -/
theorem process_isolates_cutouts_of_two :
    let g := Engine.make .image Sample.imageContext
    let q : CatalogQuery := ⟨"images", [], 9, none, none, none, none⟩
    let s : ParameterSet :=
      ⟨Dictionary.empty.insert "mode" ⟨"MODE", .core, "cutout", .text "cutout"⟩⟩
    let items : List CursorItem :=
      [.ok (.ofList [("id", .text "7"), ("access_format", .text "image/fits")]),
        .ok (.ofList [("id", .text "8"), ("access_format", .text "image/fits")])]
    let locate := Sample.locatorOf (.ofList [("7", "seven.fits"), ("8", "eight.fits")])
    let compute : CutoutTask := fun _ _ => .error (.cutout "out of order")
    let compute' := ((Sample.PreparedTask.returning [("MDFILE", "cut.fits")]).withAnswer
      "seven.fits" (.failure "out of order")).compute
    NeverFails locate ∧ ∃ r r',
      ((g.withCutouts ⟨locate, compute⟩).process q s .empty items).value = .ok r ∧
      ((g.withCutouts ⟨locate, compute'⟩).process q s .empty items).value = .ok r' ∧
      (r.overflow = false ∧ r.stats = ⟨2, 2, 2, 2⟩) ∧
      (r'.overflow = false ∧ r'.stats = ⟨2, 2, 3, 1⟩) ∧
      Isolated (g.pipeline q s .empty) locate (.ofQuery q) compute compute'
        ((g.pipeline q s .empty).visits 0 items) r r' := by
  intro g q s items locate compute compute'
  have hlocate : NeverFails locate := fun id => ⟨_, rfl⟩
  have hrun : (((g.withCutouts ⟨locate, compute⟩).process q s .empty items).value.toOption.any
      fun r => r.overflow = false ∧ r.stats = ⟨2, 2, 2, 2⟩) = true := by decide +kernel
  have hrun' : (((g.withCutouts ⟨locate, compute'⟩).process q s .empty items).value.toOption.any
      fun r => r.overflow = false ∧ r.stats = ⟨2, 2, 3, 1⟩) = true := by decide +kernel
  obtain ⟨r, hr, hcounts⟩ := exists_ok_of_any hrun
  obtain ⟨r', hr', hcounts'⟩ := exists_ok_of_any hrun'
  obtain ⟨hover, hstats⟩ := of_decide_eq_true hcounts
  obtain ⟨hover', hstats'⟩ := of_decide_eq_true hcounts'
  have hisolated := (process_isolates_cutouts g q s .empty items locate compute compute' hlocate
    (fun a ha => by rw [hr] at ha; cases ha; exact hover)
    (fun a ha => by rw [hr'] at ha; cases ha; exact hover')).2 r r' hr hr'
  exact ⟨hlocate, r, r', hr, hr', ⟨hover, hstats⟩, ⟨hover', hstats'⟩, hisolated⟩

end Engine

end SkyDiscovery
