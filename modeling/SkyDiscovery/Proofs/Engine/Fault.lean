import SkyDiscovery.Proofs.Engine.Identifier
import SkyDiscovery.Proofs.Engine.Session
import SkyDiscovery.Proofs.Engine.Refusal
import SkyDiscovery.Proofs.Record.DatasetUrl

/-!
# Faults of a run

Where the catalog, its cursor and the locator fail with failures of their own kind, so does every
run whose request is not refused, except that a row without an id cannot be published.  The limit on
records and a failed cutout never come out of a run.

* `synthesize_eq_error_iff`: in a valid context a record is wanting in nothing but the id of its
  row.
* `exists_item_of_process`: a run fails with the last item that it reads.
* `run_fails_fatally`: the failures of all runs.
-/

namespace SkyDiscovery

/-- The failure is one of the catalog or of what is read from it. -/
def Failure.IsCatalog (f : Failure) : Prop :=
  ∃ reason, f = .catalog reason

/-- The failure of a row that has no id. -/
def Failure.noId : Failure :=
  .invalid "id" "catalog row has no dataset id"

/-- The failure ends a run, and the service is not to blame for it. -/
def Failure.IsFatal (f : Failure) : Prop :=
  f.isRecoverable = false ∧ ∀ reason, f ≠ .internal reason

theorem Failure.IsRefusal.isFatal {f : Failure} (h : f.IsRefusal) : f.IsFatal := by
  unfold IsRefusal at h
  constructor
  · cases f <;> simp_all [httpStatus, isRecoverable]
  · rintro reason rfl
    simp [httpStatus] at h

theorem Failure.IsCatalog.isFatal {f : Failure} (h : f.IsCatalog) : f.IsFatal := by
  obtain ⟨reason, rfl⟩ := h
  exact ⟨rfl, fun _ => by simp⟩

/-! ## Records in a valid context -/

namespace Context

variable {c : Context} {p : Protocol}

theorem publisherId_eq_error_iff (hvalid : c.validate p = .ok ()) (hp : p.hasAccess = true)
    (id : Option String) (f : Failure) :
    c.publisherId id = .error f ↔ id = none ∧ f = .noId := by
  obtain ⟨authority, hauthority⟩ := exists_authority_of_validate hvalid hp
  cases id with
  | none =>
    obtain ⟨table, htable, -⟩ := exists_of_bind hvalid
    have hnone : c.publisherId none = .error .noId := by
      rw [publisherId, hauthority, htable]
      rfl
    rw [hnone]
    simp [eq_comm]
  | some t =>
    obtain ⟨table, hdid⟩ := publisherId_of_authority hvalid hauthority t
    rw [hdid]
    simp

end Context

namespace Synthesizer

variable {z : Synthesizer}

/-- In a valid context the URLs of a record are at hand. -/
theorem fill_fails_never (hvalid : z.context.validate z.protocol = .ok ())
    (hp : z.protocol.hasAccess = true) (row : Row) (v : Variant) (publisherId : String) :
    FailsOnly (fun _ => False) (z.fill v (z.value row v publisherId)) := by
  obtain ⟨url, hurl⟩ := Context.exists_endpoint_of_validate hvalid hp
  have hendpoint : FailsOnly (fun _ => False) z.context.endpoint := by
    rw [hurl]
    exact failsOnly_ok url
  exact z.fill_failsOnly v (value_failsOnly hendpoint row v publisherId)

/-- In a valid context a record is wanting in nothing but the id of its row. -/
theorem synthesize_eq_error_iff (hvalid : z.context.validate z.protocol = .ok ()) (row : Row)
    (v : Variant) (f : Failure) :
    z.synthesize row v = .error f ↔
      z.protocol.hasAccess = true ∧ row.text? (z.table.column "id") = none ∧ f = .noId := by
  by_cases hp : z.protocol.hasAccess = true
  · rw [synthesize, if_pos hp, ← Context.publisherId_eq_error_iff hvalid hp]
    simp only [hp, true_and]
    change (z.publisherId row >>= _) = _ ↔ z.publisherId row = _
    rcases hdid : z.publisherId row with e | did
    · simp only [bind, Except.bind, Except.error.injEq]
    · constructor
      · intro h
        exact absurd h ((fill_fails_never hvalid hp row v did).bind (fun _ => failsOnly_ok _) f)
      · intro h
        cases h
  · rw [synthesize, if_neg hp]
    constructor
    · intro h
      have hcopied : FailsOnly (fun _ => False) (z.fill v fun id => .ok (z.copied row id)) :=
        z.fill_failsOnly v fun _ => failsOnly_ok _
      exact absurd h (hcopied.bind (fun _ => failsOnly_ok _) f)
    · rintro ⟨hp', -⟩
      exact absurd hp' hp

end Synthesizer

/-! ## Where the failure of a run comes from -/

namespace Engine

/-- A failure stops the walk in the last item that is read. -/
theorem exists_group_of_failed {room : Nat} {groups : List (List Step)} {f : Failure}
    (h : (follow room groups.flatten).2 = .failed f) :
    ∃ before group after, groups = before ++ group :: after ∧
      itemsRead room groups = before.length + 1 ∧ ∃ step ∈ group, step.failure? = some f := by
  induction groups generalizing room with
  | nil => cases h
  | cons group rest ih =>
    rw [List.flatten_cons, follow_append] at h
    by_cases hgroup : (follow room group).2 = .finished
    · rw [follow_of_finished hgroup] at h
      obtain ⟨before, stopped, after, rfl, hread, hstep⟩ := ih h
      refine ⟨group :: before, stopped, after, rfl, ?_, hstep⟩
      rw [itemsRead_cons_of_finished _ hgroup, hread]
      rfl
    · have hfailed : (follow room group).2 = .failed f := by
        rcases hf : follow room group with ⟨rs, _ | _ | e⟩
        · exact absurd (by rw [hf]) hgroup
        · rw [hf] at h
          cases h
        · rw [hf] at h
          exact h
      obtain ⟨before, step, after, hsteps, -, -, hstep⟩ := (follow_failed_iff _ _ _).1 hfailed
      exact ⟨[], group, rest, rfl, itemsRead_cons_of_not_finished rest hgroup, step,
        by simp [hsteps], hstep⟩

namespace Pipeline

variable {l : Pipeline}

theorem exists_item_of_walk {drawn : Nat} {items : List CursorItem}
    {before after : List (List Step)} {group : List Step}
    (h : l.walk drawn items = before ++ group :: after) :
    ∃ read item unread, items = read ++ item :: unread ∧ read.length = before.length ∧
      ∃ drawn', group = l.steps drawn' item := by
  induction items generalizing drawn before with
  | nil => simp [walk] at h
  | cons item rest ih =>
    cases before with
    | nil =>
      obtain ⟨rfl, -⟩ := List.cons.inj h
      exact ⟨[], item, rest, rfl, rfl, drawn, rfl⟩
    | cons first before =>
      obtain ⟨-, hrest⟩ := List.cons.inj h
      obtain ⟨read, stopped, unread, rfl, hlength, hgroup⟩ := ih hrest
      exact ⟨item :: read, stopped, unread, rfl, congrArg Nat.succ hlength, hgroup⟩

/-- The item brings the failure itself, or it does so as a row of which a record cannot be made. -/
def FailsWith (l : Pipeline) (f : Failure) : CursorItem → Prop
  | .error e => e = f
  | .ok row => l.admits row = true ∧ ∃ v ∈ l.expander.variants row, ∃ association,
      (Expander.recordOf l.synthesizer l.editor association row v).value = .error f

theorem failsWith_of_mem_steps {drawn : Nat} {item : CursorItem} {step : Step} {f : Failure}
    (hmem : step ∈ l.steps drawn item) (hstep : step.failure? = some f) : l.FailsWith f item := by
  rcases item with e | row
  · obtain rfl : step = .fault e := List.mem_singleton.1 hmem
    exact Option.some.inj hstep
  · by_cases hadmits : l.admits row = true
    · rw [steps, if_pos hadmits] at hmem
      obtain ⟨v, hv, rfl⟩ := List.mem_map.1 hmem
      exact ⟨hadmits, v, hv, _, Step.failure?_variant_eq_some_iff.1 hstep⟩
    · rw [steps, if_neg hadmits] at hmem
      cases hmem

end Pipeline

/-- A run fails with the last item that it reads. -/
theorem exists_item_of_process {g : Engine} {q : CatalogQuery} {s : ParameterSet}
    {d : FieldDirectory} {items : List CursorItem} {f : Failure}
    (hlocate : ∀ e ∈ (g.pipeline q s d).editor, ∀ id,
      FailsOnly Failure.NotLimit (e.service.locate id))
    (h : (g.process q s d items).value = .error f) :
    ∃ before item after, items = before ++ item :: after ∧
      readsOf (g.process q s d items).events = before.length + 1 ∧
      (g.pipeline q s d).FailsWith f item := by
  rcases Nat.eq_zero_or_pos q.recordCap with hcap | hcap
  · obtain ⟨-, r, hr, -⟩ := process_metadata g q s d items hcap
    rw [hr] at h
    cases h
  · obtain ⟨hanswers, hreads⟩ := process_follow g q s d items hcap hlocate
    obtain ⟨before, group, after, hwalk, hread, step, hmem, hstep⟩ :=
      exists_group_of_failed ((hanswers.error_iff f).1 h)
    obtain ⟨read, item, unread, hitems, hlength, drawn, rfl⟩ := Pipeline.exists_item_of_walk hwalk
    refine ⟨read, item, unread, hitems, ?_, Pipeline.failsWith_of_mem_steps hmem hstep⟩
    rw [hreads, hread, hlength]

/-! ## Runs -/

/-- The catalog, its cursor and the locator fail with failures of the catalog only. -/
structure FailsByCatalog (g : Engine) (catalog : Catalog) : Prop where
  openSession : FailsOnly Failure.IsCatalog catalog.openSession
  execute : ∀ text, FailsOnly Failure.IsCatalog (catalog.execute text)
  cursor : ∀ text items, catalog.execute text = .ok items →
    ∀ item ∈ items, FailsOnly Failure.IsCatalog item
  locate : ∀ service ∈ g.cutouts, ∀ id, FailsOnly Failure.IsCatalog (service.locate id)

/-- The last item that is read is a row without an id, of which a record was to be made. -/
def StopsAtUnnamed (g : Engine) (q : CatalogQuery) (s : ParameterSet) (d : FieldDirectory)
    (catalog : Catalog) (events : List Event) : Prop :=
  g.protocol.hasAccess = true ∧ ∃ before row after,
    catalog.execute q.text = .ok (before ++ .ok row :: after) ∧
    readsOf events = before.length + 1 ∧
    (g.pipeline q s d).admits row = true ∧ (g.pipeline q s d).expander.variants row ≠ [] ∧
    row.text? (g.table.column "id") = none

section

variable {g : Engine} {s : ParameterSet} {q : CatalogQuery} {d : FieldDirectory} {catalog : Catalog}

theorem validate_of_compile (hq : g.compile s = .ok q) :
    g.context.validate g.protocol = .ok () := by
  obtain ⟨_, hvalid, -⟩ := exists_of_bind hq
  exact hvalid

theorem readsOf_session (text : String) (work : List Event) :
    readsOf (.opened :: .executed text :: (work ++ [.closed])) = readsOf work := by
  simp [readsOf, Event.isRead]

/-- A locator that the engine uses is that of its service. -/
theorem FailsByCatalog.editor (h : g.FailsByCatalog catalog) {e : Editor}
    (he : e ∈ (g.pipeline q s d).editor) (id : String) :
    FailsOnly Failure.IsCatalog (e.service.locate id) := by
  obtain ⟨service, hservice, rfl⟩ := Option.map_eq_some_iff.1 he
  exact h.locate service hservice id

theorem isCatalog_or_unnamed_of_process (h : g.FailsByCatalog catalog)
    (hq : g.compile s = .ok q) {rows : List CursorItem} (hrows : catalog.execute q.text = .ok rows)
    {f : Failure} (hf : (g.process q s d rows).value = .error f) :
    f.IsCatalog ∨
      f = .noId ∧ g.StopsAtUnnamed q s d catalog (g.process q s d rows).events := by
  have hlocate : ∀ e ∈ (g.pipeline q s d).editor, ∀ id,
      FailsOnly Failure.NotLimit (e.service.locate id) := by
    intro e he id
    refine (h.editor he id).mono ?_
    rintro f ⟨reason, rfl⟩ n
    simp
  obtain ⟨before, item, after, hitems, hreads, hitem⟩ := exists_item_of_process hlocate hf
  rcases item with e | row
  · obtain rfl : e = f := hitem
    exact .inl (h.cursor q.text rows hrows (.error e) (by simp [hitems]) e rfl)
  · obtain ⟨hadmits, v, hv, association, hrecord⟩ := hitem
    have hunnamed := Synthesizer.synthesize_eq_error_iff (z := (g.pipeline q s d).synthesizer)
      (validate_of_compile hq) row v
    have hrow : FailsOnly (fun f => f.IsCatalog ∨ f = .noId ∧
        g.StopsAtUnnamed q s d catalog (g.process q s d rows).events)
        ((g.pipeline q s d).synthesizer.synthesize row v) := by
      intro e he
      obtain ⟨hp, hid, rfl⟩ := (hunnamed e).1 he
      exact .inr ⟨rfl, hp, before, row, after, hitems ▸ hrows, hreads, hadmits,
        List.ne_nil_of_mem hv, hid⟩
    exact Expander.recordOf_failsOnly hrow
      (fun e he id => (h.editor he id).mono fun _ => .inl) association f hrecord

theorem Session.failure {l : Logged (Except Failure Response)} (hl : Session g s catalog l)
    (h : g.FailsByCatalog catalog) {f : Failure} (hf : l.value = .error f) :
    (f.IsRefusal ∧ ∀ q d, g.compile s = .ok q → g.directory s ≠ .ok d) ∨
      ∃ q d, g.compile s = .ok q ∧ g.directory s = .ok d ∧
        (f.IsCatalog ∨ f = .noId ∧ g.StopsAtUnnamed q s d catalog l.events) := by
  cases hl with
  | uncompiled hq =>
    cases hf
    exact .inl ⟨g.compile_refuses s _ hq, fun q d hq' => by simp [hq] at hq'⟩
  | fieldless hq hd =>
    cases hf
    exact .inl ⟨g.directory_refuses s _ hd, fun q d _ => by simp [hd]⟩
  | unopened hq hd hopen =>
    cases hf
    exact .inr ⟨_, _, hq, hd, .inl (h.openSession _ hopen)⟩
  | refused hq hd _ hexecute =>
    cases hf
    exact .inr ⟨_, _, hq, hd, .inl (h.execute _ _ hexecute)⟩
  | @worked q d rows work result hq hd _ hexecute hprocess _ =>
    refine .inr ⟨q, d, hq, hd, ?_⟩
    have hvalue : (g.process q s d rows).value = .error f := by
      rw [hprocess]
      exact hf
    rcases isCatalog_or_unnamed_of_process h hq hexecute hvalue with hcatalog | ⟨hid, hstops⟩
    · exact .inl hcatalog
    · rw [hprocess, StopsAtUnnamed, ← readsOf_session q.text work] at hstops
      exact .inr ⟨hid, hstops⟩

end

/-- No failure leaves a run that would let the run go on or that blames the service.  When the query
and the fields are found, only the catalog fails, or a row has no id under which to publish its
record; no setting is found to be missing so late. -/
theorem run_fails_fatally {g : Engine} {catalog : Catalog} (h : g.FailsByCatalog catalog)
    (s : ParameterSet) :
    (∀ f, (g.run s catalog).value = .error f → f.IsFatal) ∧
      ∀ q d, g.compile s = .ok q → g.directory s = .ok d →
        (∀ f, (g.run s catalog).value = .error f → f.IsCatalog ∨
          f = .noId ∧ g.StopsAtUnnamed q s d catalog (g.run s catalog).events) ∧
        ∀ row v f, (g.pipeline q s d).synthesizer.synthesize row v = .error f →
          f = .noId ∧ g.protocol.hasAccess = true ∧ row.text? (g.table.column "id") = none := by
  have hfailure := fun f => (session_run g s catalog).failure h (f := f)
  refine ⟨fun f hf => ?_, fun q d hq hd => ⟨fun f hf => ?_, fun row v f hf => ?_⟩⟩
  · rcases hfailure f hf with ⟨hrefusal, -⟩ | ⟨_, _, _, _, hcatalog | ⟨rfl, -⟩⟩
    · exact hrefusal.isFatal
    · exact hcatalog.isFatal
    · exact ⟨rfl, fun _ => by simp [Failure.noId]⟩
  · rcases hfailure f hf with ⟨-, hrefused⟩ | ⟨q', d', hq', hd', hcases⟩
    · exact absurd hd (hrefused q d hq)
    · cases hq.symm.trans hq'
      cases hd.symm.trans hd'
      exact hcases
  · obtain ⟨hp, hid, hnoId⟩ :=
      (Synthesizer.synthesize_eq_error_iff (z := (g.pipeline q s d).synthesizer)
        (validate_of_compile hq) row v f).1 hf
    exact ⟨hnoId, hp, hid⟩

/-- A row without an id, before a fault of the cursor that is never met. -/
theorem run_fails_fatally_unnamed :
    let g := (Engine.make .image Sample.imageContext).withCutouts
      ⟨Sample.failingLocator, fun _ _ => .error (.internal "out of order")⟩
    let catalog := Sample.catalogOf
      [.ok (.ofList [("access_format", .text "image/fits")]), .error (.catalog "connection lost")]
    g.FailsByCatalog catalog ∧ (g.run .empty catalog).value = .error .noId ∧
      Failure.noId.IsFatal ∧
      ∃ q d, g.compile .empty = .ok q ∧ g.directory .empty = .ok d ∧
        g.StopsAtUnnamed q .empty d catalog (g.run .empty catalog).events := by
  intro g catalog
  have hfails : g.FailsByCatalog catalog := by
    constructor
    · exact failsOnly_ok ()
    · exact fun _ => failsOnly_ok _
    · intro text items hitems item hitem
      cases hitems
      rcases List.mem_pair.1 hitem with rfl | rfl
      · exact failsOnly_ok _
      · exact failsOnly_error ⟨_, rfl⟩
    · intro service hservice id f hf
      cases hservice
      cases hf
      exact ⟨_, rfl⟩
  have hrun : failure? (g.run .empty catalog).value = some .noId := by decide +kernel
  have hcompile : ((g.compile .empty).toOption.any fun _ =>
      (g.directory .empty).toOption.any fun _ => true) = true := by
    decide +kernel
  obtain ⟨q, hq, hdirectory⟩ := exists_ok_of_any hcompile
  obtain ⟨d, hd, -⟩ := exists_ok_of_any hdirectory
  obtain ⟨hfatal, hfound⟩ := run_fails_fatally hfails .empty
  have hvalue := failure?_eq_some_iff.1 hrun
  obtain ⟨reason, hreason⟩ | ⟨-, hstops⟩ := (hfound q d hq hd).1 _ hvalue
  · cases hreason
  · exact ⟨hfails, hvalue, hfatal _ hvalue, q, d, hq, hd, hstops⟩

end Engine

end SkyDiscovery
