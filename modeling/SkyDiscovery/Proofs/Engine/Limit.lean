import Mathlib.Tactic.SplitIfs
import SkyDiscovery.Proofs.Engine.Walk
import SkyDiscovery.Proofs.Failure
import SkyDiscovery.Sample.Collaborators
import SkyDiscovery.Sample.Contexts

/-!
# The limit on records

A run with a limit is the walk without one, cut where the limit or a failure stops it.

* `emit_follow`: the variants of a row are followed with the room that is left in the sink.
* `takeRows_follow`: so are the steps of a stream, and as many items are read as are begun.
* `process_refines_walk`: the response holds the first records of the walk, unless the walk meets a
  failure in time, and nothing is read behind the item at which the run stops.

The service reports a full sink by a failure of its own kind, `recordLimit`.  Nothing that makes a
record fails in this way (`synthesize_failsOnly`), so the two cannot be confused.
-/

namespace SkyDiscovery

namespace Logged

variable {α β : Type}

@[simp] theorem value_bind (l : Logged α) (k : α → Logged β) :
    (l >>= k).value = (k l.value).value := rfl

@[simp] theorem events_bind (l : Logged α) (k : α → Logged β) :
    (l >>= k).events = l.events ++ (k l.value).events := rfl

@[simp] theorem events_pure (a : α) : (Pure.pure a : Logged α).events = [] := rfl

end Logged

def Event.isRead : Event → Bool
  | read => true
  | _ => false

/-- The number of items that were taken from the stream. -/
def readsOf (events : List Event) : Nat :=
  events.countP Event.isRead

@[simp] theorem readsOf_nil : readsOf [] = 0 := rfl

@[simp] theorem readsOf_append (es fs : List Event) :
    readsOf (es ++ fs) = readsOf es + readsOf fs :=
  List.countP_append

@[simp] theorem readsOf_read : readsOf (Logged.log .read).events = 1 := rfl

/-- The failure does not report a full sink. -/
def Failure.NotLimit (f : Failure) : Prop :=
  ∀ n, f ≠ .recordLimit n

/-! ## Failures of the making of records -/

namespace Context

theorem require_failsOnly (setting : Option String) (what : String) :
    FailsOnly Failure.NotLimit (require setting what) := by
  unfold require
  cases setting with
  | none => exact failsOnly_error fun n => by simp
  | some s =>
    dsimp only
    split
    · exact failsOnly_error fun n => by simp
    · exact failsOnly_ok _

theorem publisherId_failsOnly (c : Context) (id : Option String) :
    FailsOnly Failure.NotLimit (c.publisherId id) := by
  refine (require_failsOnly _ _).bind fun authority => (require_failsOnly _ _).bind fun table => ?_
  cases id with
  | none => exact failsOnly_error fun n => by simp
  | some id => exact failsOnly_ok _

theorem endpoint_failsOnly (c : Context) : FailsOnly Failure.NotLimit c.endpoint :=
  (require_failsOnly _ _).bind fun _ => (require_failsOnly _ _).bind fun _ => failsOnly_ok _

theorem accessUrl_failsOnly {P : Failure → Prop} {c : Context} (h : FailsOnly P c.endpoint)
    (runId : Option String) (id format : String) :
    FailsOnly P (c.accessUrl runId id format) :=
  h.bind fun _ => failsOnly_ok _

theorem previewUrl_failsOnly {P : Failure → Prop} {c : Context} (h : FailsOnly P c.endpoint)
    (runId : Option String) (id : String) : FailsOnly P (c.previewUrl runId id) :=
  h.bind fun _ => failsOnly_ok _

end Context

namespace Synthesizer

/-- The values of a record fail with the failures of the endpoint, which its URLs need. -/
theorem value_failsOnly {P : Failure → Prop} {z : Synthesizer}
    (h : FailsOnly P z.context.endpoint) (row : Row) (v : Variant) (publisherId id : String) :
    FailsOnly P (z.value row v publisherId id) := by
  unfold value
  split_ifs
  · exact failsOnly_ok _
  · exact (Context.accessUrl_failsOnly h _ _ _).map _
  · exact failsOnly_ok _
  · exact (Context.previewUrl_failsOnly h _ _).map _
  all_goals exact failsOnly_ok _

theorem fill_failsOnly {P : Failure → Prop} (z : Synthesizer) (v : Variant)
    {value : String → Except Failure Json} (h : ∀ id, FailsOnly P (value id)) :
    FailsOnly P (z.fill v value) :=
  (failsOnly_mapM (fun id => (h id).bind fun _ => failsOnly_ok _) _).bind fun _ => failsOnly_ok _

theorem synthesize_failsOnly (z : Synthesizer) (row : Row) (v : Variant) :
    FailsOnly Failure.NotLimit (z.synthesize row v) := by
  unfold synthesize
  split
  · exact (z.context.publisherId_failsOnly _).bind fun id =>
      (z.fill_failsOnly v (value_failsOnly z.context.endpoint_failsOnly row v id)).bind
        fun _ => failsOnly_ok _
  · exact (z.fill_failsOnly v fun _ => failsOnly_ok _).bind fun _ => failsOnly_ok _

end Synthesizer

namespace Editor

/-- The failures of an editor are those of its locator. -/
theorem edit_failsOnly (e : Editor) {P : Failure → Prop}
    (h : ∀ id, FailsOnly P (e.service.locate id)) (d : FieldDirectory) (r : Record) (id : String) :
    FailsOnly P (e.edit d r id).value.2 := by
  unfold edit
  rcases hl : e.service.locate id with f | _ | path
  · exact failsOnly_error (h id f hl)
  · exact failsOnly_ok _
  · exact failsOnly_ok _

theorem readsOf_edit (e : Editor) (d : FieldDirectory) (r : Record) (id : String) :
    readsOf (e.edit d r id).events = 0 := by
  unfold edit
  rcases e.service.locate id with f | _ | path <;> rfl

end Editor

namespace Expander

theorem complete_failsOnly {P : Failure → Prop} {editor : Option Editor}
    (h : ∀ e ∈ editor, ∀ id, FailsOnly P (e.service.locate id)) (d : FieldDirectory) (v : Variant)
    (r : Record) (publisherId : Option String) :
    FailsOnly P (complete d editor v r publisherId).value := by
  unfold complete
  split
  · split
    · next e id =>
      have hedit := e.edit_failsOnly (h e rfl) d r id
      rcases he : (e.edit d r id).value with ⟨r', f | reason | _⟩
      · rw [he] at hedit
        simp only [Logged.value_bind, he]
        exact failsOnly_error (hedit f rfl)
      all_goals
        simp only [Logged.value_bind, he]
        exact failsOnly_ok _
    · exact failsOnly_ok _
  · exact failsOnly_ok _

theorem readsOf_complete (d : FieldDirectory) (editor : Option Editor) (v : Variant) (r : Record)
    (publisherId : Option String) : readsOf (complete d editor v r publisherId).events = 0 := by
  unfold complete
  split
  · split
    · next e id =>
      rcases he : (e.edit d r id).value with ⟨r', f | reason | _⟩ <;>
        simp [he, e.readsOf_edit]
    · rfl
  · rfl

/-- Making a record fails when its synthesis or its locator does, but not with a cutout task. -/
theorem recordOf_failsOnly {P : Failure → Prop} {z : Synthesizer} {editor : Option Editor}
    {row : Row} {v : Variant} (hz : FailsOnly P (z.synthesize row v))
    (h : ∀ e ∈ editor, ∀ id, FailsOnly P (e.service.locate id)) (association : Option String) :
    FailsOnly P (recordOf z editor association row v).value := by
  unfold recordOf
  rcases hmade : z.synthesize row v with f | made
  · exact failsOnly_error (hz f hmade)
  · exact complete_failsOnly h _ _ _ _

theorem readsOf_recordOf (z : Synthesizer) (editor : Option Editor) (association : Option String)
    (row : Row) (v : Variant) : readsOf (recordOf z editor association row v).events = 0 := by
  unfold recordOf
  rcases z.synthesize row v with f | made
  · rfl
  · exact readsOf_complete _ _ _ _ _

end Expander

/-! ## Rows with a limit -/

namespace Sink

/-- The sink with more records. -/
def extend (s : Sink) (rs : List Record) : Sink :=
  ⟨s.cap, s.records ++ rs⟩

@[simp] theorem cap_extend (s : Sink) (rs : List Record) : (s.extend rs).cap = s.cap := rfl

@[simp] theorem size_extend (s : Sink) (rs : List Record) :
    (s.extend rs).size = s.size + rs.length := by
  simp [extend, size]

@[simp] theorem extend_nil (s : Sink) : s.extend [] = s := by
  simp [extend]

theorem extend_extend (s : Sink) (rs more : List Record) :
    (s.extend rs).extend more = s.extend (rs ++ more) := by
  simp [extend]

theorem ensureRoom_of_lt (s : Sink) (h : s.size < s.cap) : s.ensureRoom = .ok () := by
  rw [ensureRoom, if_neg (by omega)]

theorem ensureRoom_of_le (s : Sink) (h : s.cap ≤ s.size) :
    s.ensureRoom = .error (.recordLimit s.cap) := by
  rw [ensureRoom, if_pos h]

theorem push_of_lt (s : Sink) (h : s.size < s.cap) (r : Record) :
    s.push r = .ok (s.extend [r]) := by
  rw [push, s.ensureRoom_of_lt h]
  rfl

end Sink

namespace Engine

/-- What the expansion of a row returns when its steps end in a given way. -/
def Reports (limit : Nat) : Ending → Except Failure Expansion → Prop
  | .finished, result => ∃ done, result = .ok done
  | .limited, result => result = .error (.recordLimit limit)
  | .failed f, result => result = .error f

theorem emit_follow (z : Synthesizer) (editor : Option Editor) (association : Option String)
    (row : Row) (vs : List Variant) (sink : Sink) (done : Expansion) :
    let result := (Expander.emit z editor association row vs sink done).value
    let followed := follow (sink.cap - sink.size) (variantSteps z editor association row vs)
    result.1 = sink.extend followed.1 ∧ Reports sink.cap followed.2 result.2 := by
  induction vs generalizing sink done with
  | nil => exact ⟨sink.extend_nil.symm, done, rfl⟩
  | cons v vs ih =>
    rcases Nat.lt_or_ge sink.size sink.cap with hroom | hfull
    · obtain ⟨room, hr⟩ := Nat.exists_eq_add_of_lt hroom
      have hsub : sink.cap - sink.size = room + 1 := by omega
      simp only [Expander.emit, sink.ensureRoom_of_lt hroom, sink.push_of_lt hroom, variantSteps,
        List.map_cons, hsub, follow, Logged.value_bind]
      rcases (Expander.recordOf z editor association row v).value with f | _ | r
      · exact ⟨sink.extend_nil.symm, rfl⟩
      · rw [← hsub]
        exact ih sink _
      · obtain ⟨hsink, hreport⟩ := ih (sink.extend [r]) { done with emitted := done.emitted + 1 }
        have hroom' : (sink.extend [r]).cap - (sink.extend [r]).size = room := by
          rw [Sink.cap_extend, Sink.size_extend, List.length_singleton]
          omega
        rw [hroom'] at hsink hreport
        exact ⟨hsink.trans (Sink.extend_extend _ _ _), hreport⟩
    · have hsub : sink.cap - sink.size = 0 := by omega
      simp only [Expander.emit, sink.ensureRoom_of_le hfull, variantSteps, List.map_cons, hsub,
        follow]
      exact ⟨sink.extend_nil.symm, rfl⟩

theorem readsOf_emit (z : Synthesizer) (editor : Option Editor) (association : Option String)
    (row : Row) (vs : List Variant) (sink : Sink) (done : Expansion) :
    readsOf (Expander.emit z editor association row vs sink done).events = 0 := by
  induction vs generalizing sink done with
  | nil => rfl
  | cons v vs ih =>
    rcases Nat.lt_or_ge sink.size sink.cap with hroom | hfull
    · simp only [Expander.emit, sink.ensureRoom_of_lt hroom, sink.push_of_lt hroom,
        Logged.events_bind, readsOf_append, Expander.readsOf_recordOf, Nat.zero_add]
      rcases (Expander.recordOf z editor association row v).value with f | _ | r
      · rfl
      · exact ih _ _
      · exact ih _ _
    · simp only [Expander.emit, sink.ensureRoom_of_le hfull]
      rfl

theorem expand_follow (x : Expander) (z : Synthesizer) (editor : Option Editor) (row : Row)
    (out : Output) :
    let drawn := Expander.associate out.associations (x.variants row).length
    let result := (x.expand z editor row out).value
    let followed := follow (out.sink.cap - out.sink.size)
      (variantSteps z editor drawn.2 row (x.variants row))
    result.1 = ⟨out.sink.extend followed.1, drawn.1⟩ ∧
      Reports out.sink.cap followed.2 result.2 := by
  obtain ⟨hsink, hreport⟩ := emit_follow z editor
    (Expander.associate out.associations (x.variants row).length).2 row (x.variants row) out.sink
    ⟨0, 0⟩
  exact ⟨congrArg (Output.mk · _) hsink, hreport⟩

theorem readsOf_expand (x : Expander) (z : Synthesizer) (editor : Option Editor) (row : Row)
    (out : Output) : readsOf (x.expand z editor row out).events = 0 := by
  simp only [Expander.expand, Logged.events_bind, Logged.events_pure, readsOf_append, readsOf_emit,
    readsOf_nil]

/-- A failure of a row's variants is one of the makings of a record. -/
theorem notLimit_of_follow_variantSteps {z : Synthesizer} {editor : Option Editor}
    (h : ∀ e ∈ editor, ∀ id, FailsOnly Failure.NotLimit (e.service.locate id))
    {association : Option String} {row : Row} {vs : List Variant} {room : Nat} {f : Failure}
    (hf : (follow room (variantSteps z editor association row vs)).2 = .failed f) :
    f.NotLimit := by
  obtain ⟨before, step, after, hsteps, -, -, hstep⟩ := (follow_failed_iff _ _ _).1 hf
  have hmem : step ∈ variantSteps z editor association row vs := by simp [hsteps]
  obtain ⟨v, -, rfl⟩ := List.mem_map.1 hmem
  refine Expander.recordOf_failsOnly (z.synthesize_failsOnly row v) h association f ?_
  rcases hv : Expander.recordOf z editor association row v with ⟨events, g | r⟩
  · simp only [hv, Step.failure?, Option.some.injEq] at hstep
    rw [hstep]
  · simp [hv, Step.failure?] at hstep

/-! ## Streams with a limit -/

/-- What taking up the rows of a stream returns when its steps are followed in a given way, after
some records. -/
def Yields (start : List Record) : List Record × Ending → Except Failure (Progress × Bool) → Prop
  | (rs, .finished), result =>
    ∃ p, result = .ok (p, false) ∧ p.output.sink.records = start ++ rs
  | (rs, .limited), result =>
    ∃ p, result = .ok (p, true) ∧ p.output.sink.records = start ++ rs
  | (_, .failed f), result => result = .error f

theorem Yields.append {start rs : List Record} {followed : List Record × Ending}
    {result : Except Failure (Progress × Bool)} (h : Yields (start ++ rs) followed result) :
    Yields start (rs ++ followed.1, followed.2) result := by
  obtain ⟨more, _ | _ | f⟩ := followed
  · obtain ⟨p, hp, hrecords⟩ := h
    exact ⟨p, hp, by rw [hrecords, List.append_assoc]⟩
  · obtain ⟨p, hp, hrecords⟩ := h
    exact ⟨p, hp, by rw [hrecords, List.append_assoc]⟩
  · exact h

theorem takeRows_follow (l : Pipeline)
    (h : ∀ e ∈ l.editor, ∀ id, FailsOnly Failure.NotLimit (e.service.locate id))
    (items : List CursorItem) (p : Progress) :
    let room := p.output.sink.cap - p.output.sink.size
    let groups := l.walk p.output.associations items
    Yields p.output.sink.records (follow room groups.flatten) (l.takeRows items p).value ∧
      readsOf (l.takeRows items p).events = itemsRead room groups := by
  induction items generalizing p with
  | nil => exact ⟨⟨p, rfl, by simp⟩, rfl⟩
  | cons item rest ih =>
    rcases item with f | row
    · exact ⟨rfl, rfl⟩
    · by_cases hadmits : l.admits row
      · obtain ⟨hout, hreport⟩ := expand_follow l.expander l.synthesizer l.editor row p.output
        simp only [Pipeline.takeRows, hadmits, if_true, Logged.value_bind, Logged.events_bind,
          readsOf_append, readsOf_expand, readsOf_read, Pipeline.walk, Pipeline.steps,
          Pipeline.drawnAfter, List.flatten_cons, hout, follow_append, itemsRead]
        generalize Expander.associate p.output.associations (l.expander.variants row).length =
          drawn at hreport ⊢
        rcases hf : follow (p.output.sink.cap - p.output.sink.size)
          (variantSteps l.synthesizer l.editor drawn.2 row (l.expander.variants row))
          with ⟨rs, _ | _ | f⟩
        · rw [hf] at hreport
          obtain ⟨done, hdone⟩ := hreport
          obtain ⟨hyields, hreads⟩ := ih ⟨⟨p.output.sink.extend rs, drawn.1⟩, p.scanned + 1,
            p.matched + 1, p.discarded + done.discarded⟩
          simp only [Sink.cap_extend, Sink.size_extend, ← Nat.sub_sub] at hyields hreads
          rw [hdone]
          refine ⟨hyields.append, ?_⟩
          rw [hreads, Nat.zero_add]
          exact Nat.add_comm _ _
        · rw [hf] at hreport
          rw [show _ = _ from hreport]
          exact ⟨⟨_, rfl, rfl⟩, rfl⟩
        · have hlimit := notLimit_of_follow_variantSteps h (congrArg Prod.snd hf)
          rw [hf] at hreport
          rw [show _ = _ from hreport]
          cases f with
          | recordLimit n => exact absurd rfl (hlimit n)
          | _ => exact ⟨rfl, rfl⟩
      · obtain ⟨hyields, hreads⟩ := ih { p with scanned := p.scanned + 1 }
        simp only [Pipeline.takeRows, hadmits, Bool.false_eq_true, if_false, Logged.value_bind,
          Logged.events_bind, readsOf_append, readsOf_read, Pipeline.walk, Pipeline.steps,
          Pipeline.drawnAfter, List.flatten_cons, List.nil_append, itemsRead, follow, hreads]
        exact ⟨hyields, Nat.add_comm _ _⟩

/-! ## Runs with a limit -/

/-- The runs under all limits are cuts of one walk. -/
structure CutsOf (walk : List (List Step)) (run : Nat → Logged (Except Failure Response)) :
    Prop where
  /-- With no room at all, nothing is read and there are no records. -/
  unread : readsOf (run 0).events = 0 ∧ ∃ r, (run 0).value = .ok r ∧ r.records = []
  /-- A run fails with the first failure that the walk meets while there is room. -/
  failure : ∀ limit, 1 ≤ limit →
    ∀ f, (run limit).value = .error f ↔ FailsWithin limit walk.flatten f
  /-- Otherwise it ends well, with the first records of the walk. -/
  records : ∀ limit, 1 ≤ limit → (∀ f, ¬ FailsWithin limit walk.flatten f) →
    ∃ r, (run limit).value = .ok r ∧ r.records = (recordsOf walk.flatten).take limit
  /-- What is read before the last item is cleared, and a stream that is not read to its end is
  stopped in that item. -/
  reads : ∀ limit, 1 ≤ limit →
    readsOf (run limit).events ≤ walk.length ∧
      (∀ j < readsOf (run limit).events, Cleared limit (walk.take j).flatten) ∧
      (readsOf (run limit).events < walk.length →
        ¬ Cleared limit (walk.take (readsOf (run limit).events)).flatten)
  /-- A smaller limit yields the first records of what a larger one yields. -/
  cut : ∀ limit larger r r', limit ≤ larger → (run limit).value = .ok r →
    (run larger).value = .ok r' → r.records = r'.records.take limit

/-- How many items are read is determined by the walk. -/
theorem CutsOf.reads_eq {walk : List (List Step)} {run : Nat → Logged (Except Failure Response)}
    (h : CutsOf walk run) {limit : Nat} (hlimit : 1 ≤ limit) :
    readsOf (run limit).events = itemsRead limit walk := by
  obtain ⟨hle, hcleared, hstopped⟩ := h.reads limit hlimit
  rcases Nat.lt_trichotomy (readsOf (run limit).events) (itemsRead limit walk) with hlt | heq | hgt
  · have hshort : readsOf (run limit).events < walk.length :=
      Nat.lt_of_lt_of_le hlt (itemsRead_le limit walk)
    exact absurd (cleared_of_lt_itemsRead hlt) (hstopped hshort)
  · exact heq
  · exact absurd (hcleared _ hgt) (not_cleared_of_itemsRead_lt (Nat.lt_of_lt_of_le hgt hle))

/-- What a run returns when its steps are followed in a given way. -/
def Answers : List Record × Ending → Except Failure Response → Prop
  | (_, .failed f), result => result = .error f
  | (rs, _), result => ∃ r, result = .ok r ∧ r.records = rs

theorem Answers.error_iff {followed : List Record × Ending} {result : Except Failure Response}
    (h : Answers followed result) (f : Failure) : result = .error f ↔ followed.2 = .failed f := by
  obtain ⟨rs, _ | _ | g⟩ := followed
  · obtain ⟨r, rfl, -⟩ := h
    simp
  · obtain ⟨r, rfl, -⟩ := h
    simp
  · rw [show result = .error g from h]
    simp

theorem Answers.exists_ok {followed : List Record × Ending} {result : Except Failure Response}
    (h : Answers followed result) (hf : ∀ f, followed.2 ≠ .failed f) :
    ∃ r, result = .ok r ∧ r.records = followed.1 := by
  obtain ⟨rs, _ | _ | g⟩ := followed
  · exact h
  · exact h
  · exact absurd rfl (hf g)

/-- An answer without a failure holds the first records of the steps. -/
theorem Answers.records_eq {room : Nat} {steps : List Step} {result : Except Failure Response}
    {r : Response} (h : Answers (follow room steps) result) (hr : result = .ok r) :
    r.records = (recordsOf steps).take room := by
  have hnot : ∀ f, (follow room steps).2 ≠ .failed f := by
    intro f hf
    have hfails : result = .error f := (h.error_iff f).2 hf
    rw [hr] at hfails
    cases hfails
  obtain ⟨r', hr', hrecords⟩ := h.exists_ok hnot
  rw [hr] at hr'
  cases hr'
  exact hrecords.trans (records_follow hnot)

/-- Runs that follow one walk under all limits are cuts of it. -/
theorem cutsOf_of_answers {walk : List (List Step)} {run : Nat → Logged (Except Failure Response)}
    (hunread : readsOf (run 0).events = 0 ∧ ∃ r, (run 0).value = .ok r ∧ r.records = [])
    (hrun : ∀ limit, 1 ≤ limit → Answers (follow limit walk.flatten) (run limit).value ∧
      readsOf (run limit).events = itemsRead limit walk) :
    CutsOf walk run := by
  -- A run that ends well yields the first records of the walk, also without any room.
  have htake : ∀ limit r, (run limit).value = .ok r →
      r.records = (recordsOf walk.flatten).take limit := by
    intro limit r hr
    rcases Nat.eq_zero_or_pos limit with rfl | hpos
    · obtain ⟨-, r', hr', hrecords⟩ := hunread
      rw [hr] at hr'
      cases hr'
      rw [hrecords, List.take_zero]
    · exact (hrun limit hpos).1.records_eq hr
  constructor
  · exact hunread
  · intro limit hlimit f
    exact ((hrun limit hlimit).1.error_iff f).trans (follow_failed_iff _ _ _)
  · intro limit hlimit hnot
    have hfollow : ∀ f, (follow limit walk.flatten).2 ≠ .failed f :=
      fun f hf => hnot f ((follow_failed_iff _ _ _).1 hf)
    obtain ⟨r, hr, -⟩ := (hrun limit hlimit).1.exists_ok hfollow
    exact ⟨r, hr, htake limit r hr⟩
  · intro limit hlimit
    rw [(hrun limit hlimit).2]
    exact ⟨itemsRead_le _ _, fun j hj => cleared_of_lt_itemsRead hj, not_cleared_of_itemsRead_lt⟩
  · intro limit larger r r' hle hr hr'
    rw [htake limit r hr, htake larger r' hr', List.take_take, Nat.min_eq_left hle]

theorem process_follow (g : Engine) (q : CatalogQuery) (s : ParameterSet) (d : FieldDirectory)
    (items : List CursorItem) (hcap : 1 ≤ q.recordCap)
    (h : ∀ e ∈ (g.pipeline q s d).editor, ∀ id, FailsOnly Failure.NotLimit (e.service.locate id)) :
    let groups := (g.pipeline q s d).walk 0 items
    Answers (follow q.recordCap groups.flatten) (g.process q s d items).value ∧
      readsOf (g.process q s d items).events = itemsRead q.recordCap groups := by
  obtain ⟨hyields, hreads⟩ := takeRows_follow (g.pipeline q s d) h items
    ⟨⟨.empty q.recordCap, 0⟩, 0, 0, 0⟩
  have hmeta : q.isMetadataOnly = false := by
    simp only [CatalogQuery.isMetadataOnly, beq_eq_false_iff_ne]
    omega
  simp only [Sink.empty, Sink.size, List.length_nil, Nat.sub_zero] at hyields hreads
  simp only [process, hmeta, Bool.false_eq_true, if_false, Logged.value_bind, Logged.events_bind,
    readsOf_append, Sink.empty, hreads]
  rcases hf : follow q.recordCap ((g.pipeline q s d).walk 0 items).flatten with ⟨rs, _ | _ | f⟩
  · rw [hf] at hyields
    obtain ⟨p, hp, hrecords⟩ := hyields
    rw [hp]
    exact ⟨⟨_, rfl, hrecords⟩, rfl⟩
  · rw [hf] at hyields
    obtain ⟨p, hp, hrecords⟩ := hyields
    rw [hp]
    exact ⟨⟨_, rfl, hrecords⟩, rfl⟩
  · rw [hf] at hyields
    rw [show _ = _ from hyields]
    exact ⟨rfl, rfl⟩

theorem process_metadata (g : Engine) (q : CatalogQuery) (s : ParameterSet) (d : FieldDirectory)
    (items : List CursorItem) (hcap : q.recordCap = 0) :
    readsOf (g.process q s d items).events = 0 ∧
      ∃ r, (g.process q s d items).value = .ok r ∧ r.records = [] := by
  have hmeta : q.isMetadataOnly = true := by
    rw [CatalogQuery.isMetadataOnly, hcap, beq_self_eq_true]
  simp only [process, hmeta, if_true]
  exact ⟨rfl, _, rfl, rfl⟩

/-- Under every limit a run is a cut of the walk without a limit. -/
theorem process_refines_walk (g : Engine) (q : CatalogQuery) (s : ParameterSet) (d : FieldDirectory)
    (items : List CursorItem)
    (hlocate : ∀ service ∈ g.cutouts, ∀ id f, service.locate id = .error f →
      ∃ reason, f = .catalog reason) :
    CutsOf ((g.pipeline q s d).walk 0 items) fun limit =>
      g.process { q with recordCap := limit } s d items := by
  have hfails : ∀ e ∈ (g.pipeline q s d).editor, ∀ id,
      FailsOnly Failure.NotLimit (e.service.locate id) := by
    intro e he id f hf n
    obtain ⟨service, hservice, rfl⟩ := Option.map_eq_some_iff.1 he
    obtain ⟨reason, rfl⟩ := hlocate service hservice id f hf
    simp
  refine cutsOf_of_answers (process_metadata g { q with recordCap := 0 } s d items rfl) ?_
  intro limit hlimit
  exact process_follow g { q with recordCap := limit } s d items hlimit hfails

/-- A row with a stored file and with a cutout for which the locator is out of order, and then the
break of the cursor.  With room for one record the run ends well with the stored file, with more it
fails as the locator does, and in neither case does it come to the break. -/
theorem process_refines_walk_failing_locator :
    let g := (Engine.make .image Sample.imageContext).withCutouts
      ⟨Sample.failingLocator, fun _ _ => .ok none⟩
    let q : CatalogQuery := ⟨"images", [], 2, none, none, none, none⟩
    let s : ParameterSet := ⟨Dictionary.empty.insert "mode" ⟨"MODE", .core, "cutout", .text "cutout"⟩⟩
    let items : List CursorItem :=
      [.ok (.ofList [("id", .text "7"), ("access_format", .text "image/fits")]),
        .error (.catalog "connection lost")]
    let run := fun limit => g.process { q with recordCap := limit } s .empty items
    (∀ service ∈ g.cutouts, ∀ id f, service.locate id = .error f →
      ∃ reason, f = .catalog reason) ∧
    (readsOf (run 0).events = 0 ∧ ∃ r, (run 0).value = .ok r ∧ r.records = []) ∧
    (readsOf (run 1).events = 1 ∧ ∃ r, (run 1).value = .ok r ∧
      r.records.map (fun x => (x.product, x.association)) = [(.archival, some "MultiFormat.1")]) ∧
    ∀ limit, 2 ≤ limit → readsOf (run limit).events = 1 ∧
      (run limit).value = .error (.catalog "locator unavailable") := by
  intro g q s items run
  have hlocate : ∀ service ∈ g.cutouts, ∀ id f, service.locate id = .error f →
      ∃ reason, f = .catalog reason := by
    intro service hservice id f hf
    cases hservice
    cases hf
    exact ⟨_, rfl⟩
  have hcuts : CutsOf ((g.pipeline q s .empty).walk 0 items) run :=
    process_refines_walk g q s .empty items hlocate
  -- the stored file, the cutout that is not located, and the break of the cursor
  have hwalk : ((g.pipeline q s .empty).walk 0 items).map (List.map fun step =>
      (step.isVariant, step.failure?, step.record?.isSome)) =
      [[(true, none, true), (true, some (.catalog "locator unavailable"), false)],
        [(false, some (.catalog "connection lost"), false)]] := by
    decide +kernel
  have hrecords : (recordsOf ((g.pipeline q s .empty).walk 0 items).flatten).map
      (fun x => (x.product, x.association)) = [(.archival, some "MultiFormat.1")] := by
    decide +kernel
  clear_value run
  generalize (g.pipeline q s .empty).walk 0 items = walk at hcuts hwalk hrecords
  simp only [List.map_eq_cons_iff, List.map_eq_nil_iff, Prod.mk.injEq,
    Option.isSome_iff_exists] at hwalk
  obtain ⟨_, _, rfl, ⟨stored, _, rfl, ⟨hstored, hsound, x, hx⟩, cutout, _, rfl,
    ⟨hvariant, hfailure, -⟩, rfl⟩, later, _, rfl, -, rfl⟩ := hwalk
  have hone : (recordsOf [stored]).length = 1 := by simp [recordsOf, hx]
  have hfails (limit : Nat) (f : Failure) :
      FailsWithin limit [[stored, cutout], later].flatten f ↔
        2 ≤ limit ∧ .catalog "locator unavailable" = f := by
    have hroom : 0 < limit ∧ 0 < limit - 1 ↔ 2 ≤ limit := by omega
    simp only [List.flatten_cons, List.cons_append, failsWithin_cons_iff, HasRoom, recordsOf_nil,
      List.length_nil, hstored, hsound, hone, hvariant, hfailure, forall_const, Option.some.injEq,
      reduceCtorEq, false_and, false_or, or_false, true_and]
    rw [← and_assoc, hroom]
  have hreads (limit : Nat) (hlimit : 1 ≤ limit) : readsOf (run limit).events = 1 := by
    rw [hcuts.reads_eq hlimit, itemsRead_cons_of_not_finished]
    simp [follow_finished_iff, cleared_cons_iff, hfailure]
  refine ⟨hlocate, hcuts.unread, ⟨hreads 1 (Nat.le_refl 1), ?_⟩, fun limit hlimit => ?_⟩
  · obtain ⟨r, hr, htake⟩ := hcuts.records 1 (Nat.le_refl 1) fun f hf =>
      absurd ((hfails 1 f).1 hf).1 (by decide)
    refine ⟨r, hr, ?_⟩
    rw [htake, List.map_take, hrecords]
    rfl
  · have hpos : 1 ≤ limit := Nat.le_of_succ_le hlimit
    exact ⟨hreads limit hpos, (hcuts.failure limit hpos _).2 ((hfails limit _).2 ⟨hlimit, rfl⟩)⟩

end Engine

end SkyDiscovery
