import SkyDiscovery.Proofs.Engine.Visit

/-!
# Where the records of a response come from

A run that ends well has made the first visits of its stream, and its records are what came of
them.  Nothing is assumed of the collaborators here: a locator that fails with the failure of a full
sink ends the run early, and the visits before it are the first ones all the same.

* `recordOf_kept`: what holds of a record as it was synthesized, and is kept when declared fields
  are set, holds of the record in the response.
* `exists_visits_of_process`: the records of a response come of the first visits, in their order.
* `mem_events_process`: what happens in a run happens while a record of a row is made, but for the
  reading of items.
-/

namespace SkyDiscovery

/-! ## What is kept while a record is made -/

/-- A record may be given a field that the directory declares or that it has already. -/
def FieldDirectory.Allows (d : FieldDirectory) (r : Record) (id : String) : Prop :=
  d.contains id = true ∨ id ∈ d.ids ∨ (r.get? id).isSome = true

/-- A property of records that is kept when fields are set and a record becomes virtual. -/
structure KeptBy (d : FieldDirectory) (P : Record → Prop) : Prop where
  set : ∀ r id x, P r → d.Allows r id → P (r.set id x)
  virtual : ∀ r, P r → P { r with product := .virtual }

theorem FieldDirectory.id_mem_of_named? {d : FieldDirectory} {keyword : String} {f : Field}
    (h : d.named? keyword = some f) : f.id ∈ d.ids := by
  have hplace : ∃ i : Nat, d.fields[i]? = some f := by
    rcases Option.or_eq_some_iff.1 h with hid | ⟨-, hutype⟩
    · obtain ⟨i, -, hi⟩ := Option.bind_eq_some_iff.1 hid
      exact ⟨i, hi⟩
    · obtain ⟨i, -, hi⟩ := Option.bind_eq_some_iff.1 hutype
      exact ⟨i, hi⟩
  obtain ⟨i, hi⟩ := hplace
  exact List.mem_map_of_mem (List.mem_of_getElem? hi)

section

variable {d : FieldDirectory} {P : Record → Prop} {r : Record}

namespace Editor

theorem applyKeyword_kept (hP : KeptBy d P) (hr : P r) (k : String × String) :
    P (applyKeyword d r k) := by
  unfold applyKeyword
  split
  · next f hf => exact hP.set _ _ _ hr (.inr (.inl (FieldDirectory.id_mem_of_named? hf)))
  · exact hr

theorem describe_kept (hP : KeptBy d P) (hr : P r) (keywords : Keywords) :
    P (describe d keywords r) := by
  have hfold : ∀ (ks : List (String × String)) (r : Record), P r →
      P (ks.foldl (applyKeyword d) r) := by
    intro ks
    induction ks with
    | nil => exact fun r hr => hr
    | cons k ks ih => exact fun r hr => ih _ (applyKeyword_kept hP hr k)
  refine hfold _ _ ?_
  split
  · next hdeclared => exact hP.set _ _ _ (hP.virtual r hr) (.inl hdeclared)
  · exact hP.virtual r hr

theorem redirect?_kept (hP : KeptBy d P) (hr : P r) {file : String} {turned : Record}
    (h : redirect? r file = some turned) : P turned := by
  unfold redirect? at h
  split at h
  · cases h
    exact hr
  · next url hurl =>
    obtain ⟨u, -, rfl⟩ := Option.map_eq_some_iff.1 h
    refine hP.set _ _ _ hr (.inr (.inr ?_))
    unfold Record.text? at hurl
    split at hurl
    · next hget => rw [hget, Option.isSome_some]
    · cases hurl

theorem conclude_kept (hP : KeptBy d P) (hr : P r) {edited : Record} {id : String}
    {answer : Except Failure (Option Keywords)}
    (h : conclude d r id answer = (edited, .applied)) : P edited := by
  unfold conclude at h
  split at h
  · simp at h
  · simp at h
  · split at h
    · simp at h
    · split at h
      · simp at h
      · next hredirect =>
        obtain ⟨rfl, -⟩ := Prod.mk.inj h
        exact describe_kept hP (redirect?_kept hP hr hredirect) _

theorem edit_kept (hP : KeptBy d P) (hr : P r) {e : Editor} {edited : Record} {id : String}
    (h : (e.edit d r id).value = (edited, .ok .applied)) : P edited := by
  unfold edit at h
  rcases hl : e.service.locate id with f | _ | path
  · simp [hl] at h
  · simp [hl] at h
  · simp only [hl, Logged.value_bind, Logged.value_pure, Prod.mk.injEq, Except.ok.injEq] at h
    exact conclude_kept hP hr (Prod.ext h.1 h.2)

end Editor

namespace Expander

theorem withAssociation_kept (hP : KeptBy d P) {association : Option String}
    (hr : P { r with association := association }) : P (withAssociation d association r) := by
  unfold withAssociation
  split
  · split
    · next hdeclared => exact hP.set _ _ _ hr (.inl hdeclared)
    · exact hr
  · exact hr

theorem complete_kept (hP : KeptBy d P) (hr : P r) {editor : Option Editor} {v : Variant}
    {completed : Record} {publisherId : Option String}
    (h : (complete d editor v r publisherId).value = .ok (some completed)) : P completed := by
  unfold complete at h
  split at h
  · split at h
    · next e id =>
      rcases he : (e.edit d r id).value with ⟨edited, f | _ | reason⟩
      · simp [he] at h
      · simp only [Logged.value_bind, he, Logged.value_pure, Except.ok.injEq,
          Option.some.injEq] at h
        exact h ▸ Editor.edit_kept hP hr he
      · simp [he] at h
    · simp at h
  · simp only [Logged.value_pure, Except.ok.injEq, Option.some.injEq] at h
    exact h ▸ hr

/-- What holds of a record when it was synthesized and has got its association holds of it when it
is emitted. -/
theorem recordOf_kept {z : Synthesizer} (hP : KeptBy z.directory P) {editor : Option Editor}
    {association : Option String} {row : Row} {v : Variant}
    (hmade : ∀ made, z.synthesize row v = .ok made →
      P { made.record with association := association })
    (h : (recordOf z editor association row v).value = .ok (some r)) : P r := by
  unfold recordOf at h
  split at h
  · simp at h
  · next made hsynthesized =>
    exact complete_kept hP (withAssociation_kept hP (hmade made hsynthesized)) h

end Expander

end

/-! ## Formats and associations -/

/-- A record is not edited in its format and its association. -/
theorem keptBy_label (d : FieldDirectory) (format : String) (association : Option String) :
    KeptBy d fun r => r.format = format ∧ r.association = association where
  set _ _ _ hr _ := hr
  virtual _ hr := hr

namespace Synthesizer

theorem fill_format {z : Synthesizer} {v : Variant} {value : String → Except Failure Json}
    {r : Record} (h : z.fill v value = .ok r) : r.format = v.mime := by
  obtain ⟨entries, -, h⟩ := exists_of_bind h
  cases h
  rfl

theorem synthesize_format {z : Synthesizer} {row : Row} {v : Variant} {made : Synthesized}
    (h : z.synthesize row v = .ok made) : made.record.format = v.mime := by
  obtain ⟨value, hfill⟩ := exists_fill_of_synthesize h
  exact fill_format hfill

end Synthesizer

namespace Engine

namespace Pipeline

variable {l : Pipeline} {v : Visit}

theorem record?_kept {P : Record → Prop} (hP : KeptBy l.synthesizer.directory P)
    (hmade : ∀ made, l.synthesizer.synthesize v.row v.variant = .ok made →
      P { made.record with association := v.association })
    {r : Record} (h : l.record? v = some r) : P r := by
  unfold record? at h
  split at h
  · next made hvalue =>
    rw [h] at hvalue
    exact Expander.recordOf_kept hP hmade hvalue
  · cases h

/-- A record has the format of its variant and the association of its row. -/
theorem record?_label {r : Record} (h : l.record? v = some r) :
    r.format = v.variant.mime ∧ r.association = v.association :=
  record?_kept (keptBy_label _ v.variant.mime v.association)
    (fun _ hmade => ⟨Synthesizer.synthesize_format hmade, rfl⟩) h

theorem mem_visitsOf {drawn : Nat} {row : Row} (h : v ∈ l.visitsOf drawn row) :
    v.row = row ∧ v.variant ∈ l.expander.variants row ∧
      v.association = (Expander.associate drawn (l.expander.variants row).length).2 := by
  obtain ⟨variant, hvariant, rfl⟩ := List.mem_map.1 h
  exact ⟨rfl, hvariant, rfl⟩

/-- A visit goes to a row of the stream, for one of its variants. -/
theorem mem_visits {drawn : Nat} {items : List CursorItem} (h : v ∈ l.visits drawn items) :
    Except.ok v.row ∈ items ∧ v.variant ∈ l.expander.variants v.row := by
  induction items generalizing drawn with
  | nil => cases h
  | cons item rest ih =>
    have hrest : ∀ {drawn}, v ∈ l.visits drawn rest →
        Except.ok v.row ∈ item :: rest ∧ v.variant ∈ l.expander.variants v.row :=
      fun hv => ⟨List.mem_cons_of_mem _ (ih hv).1, (ih hv).2⟩
    rcases item with f | row
    · exact hrest h
    · unfold visits at h
      split at h
      · rcases List.mem_append.1 h with hv | hv
        · obtain ⟨rfl, hvariant, -⟩ := mem_visitsOf hv
          exact ⟨List.mem_cons_self, hvariant⟩
        · exact hrest hv
      · exact hrest h

end Pipeline

/-! ## The first visits -/

/-- Whatever comes of the variants of a row, the first of them are made; if it is not a failure,
all are. -/
theorem emit_first (l : Pipeline) (association : Option String) (row : Row) (vs : List Variant)
    (sink : Sink) (done : Expansion) :
    let result := (Expander.emit l.synthesizer l.editor association row vs sink done).value
    ∃ us ws calls, vs.map (Visit.mk row · association) = us ++ ws ∧
      Made l sink us result.1 calls ∧ ((∃ e, result.2 = .ok e) → ws = []) := by
  induction vs generalizing sink done with
  | nil => exact ⟨[], [], [], rfl, .nil sink, fun _ => rfl⟩
  | cons v vs ih =>
    rcases Nat.lt_or_ge sink.size sink.cap with hroom | hfull
    · simp only [Expander.emit, sink.ensureRoom_of_lt hroom, sink.push_of_lt hroom, List.map_cons,
        Logged.value_bind]
      rcases hv : (l.recordOf ⟨row, v, association⟩).value with f | _ | r
      all_goals rw [show (Expander.recordOf _ _ _ _ _).value = _ from hv]
      · exact ⟨[], _, [], rfl, .nil sink, by simp⟩
      · obtain ⟨us, ws, calls, hvs, hmade, hall⟩ := ih sink { done with discarded := _ }
        exact ⟨_ :: us, ws, _, congrArg (_ :: ·) hvs,
          .cons hroom hv (by rwa [Option.toList_none, Sink.extend_nil]), hall⟩
      · obtain ⟨us, ws, calls, hvs, hmade, hall⟩ := ih (sink.extend [r]) { done with emitted := _ }
        exact ⟨_ :: us, ws, _, congrArg (_ :: ·) hvs, .cons hroom hv hmade, hall⟩
    · simp only [Expander.emit, sink.ensureRoom_of_le hfull]
      exact ⟨[], _, [], rfl, .nil sink, by simp⟩

/-- Of the visits of a stream, a run that ends well has made the first. -/
theorem takeRows_first (l : Pipeline) (items : List CursorItem) {p after : Progress}
    {overflow : Bool} (hrun : (l.takeRows items p).value = .ok (after, overflow)) :
    ∃ vs ws calls, l.visits p.output.associations items = vs ++ ws ∧
      Made l p.output.sink vs after.output.sink calls := by
  induction items generalizing p with
  | nil =>
    cases hrun
    exact ⟨[], [], [], rfl, .nil _⟩
  | cons item rest ih =>
    rcases item with f | row
    · cases hrun
    · by_cases hadmits : l.admits row
      · obtain ⟨us, ws, calls, hvisits, hmade, hall⟩ := emit_first l
          (Expander.associate p.output.associations (l.expander.variants row).length).2 row
          (l.expander.variants row) p.output.sink ⟨0, 0⟩
        simp only [Pipeline.takeRows, hadmits, if_true, Logged.value_bind, Expander.expand,
          Logged.value_pure] at hrun
        rw [Pipeline.visits, if_pos hadmits, Pipeline.visitsOf, hvisits]
        rcases he : (Expander.emit l.synthesizer l.editor _ row _ p.output.sink ⟨0, 0⟩).value with
          ⟨sink, f | done⟩
        all_goals rw [he] at hrun hmade hall
        · cases f with
          | recordLimit n =>
            cases hrun
            exact ⟨us, _, calls, List.append_assoc _ _ _, hmade⟩
          | _ => cases hrun
        · obtain rfl : ws = [] := hall ⟨done, rfl⟩
          obtain ⟨vs, more, _, hrest, hmore⟩ := ih hrun
          exact ⟨us ++ vs, more, _, by rw [List.append_nil, hrest, List.append_assoc],
            hmade.append hmore⟩
      · simp only [Pipeline.takeRows, hadmits, Bool.false_eq_true, if_false,
          Logged.value_bind] at hrun
        rw [Pipeline.visits, if_neg hadmits]
        exact ih (p := { p with scanned := p.scanned + 1 }) hrun

/-- The records of a response come of the first visits of its stream, none of which failed. -/
theorem exists_visits_of_process {g : Engine} {q : CatalogQuery} {s : ParameterSet}
    {d : FieldDirectory} {items : List CursorItem} {r : Response}
    (hrun : (g.process q s d items).value = .ok r) :
    ∃ vs ws, (g.pipeline q s d).visits 0 items = vs ++ ws ∧
      (∀ v ∈ vs, ∃ made, ((g.pipeline q s d).recordOf v).value = .ok made) ∧
      r.records = vs.filterMap (g.pipeline q s d).record? ∧ r.directory = d := by
  simp only [process, Logged.value_bind] at hrun
  cases hmeta : q.isMetadataOnly with
  | true =>
    rw [hmeta, if_pos rfl] at hrun
    cases hrun
    exact ⟨[], _, rfl, by simp, rfl, rfl⟩
  | false =>
    rw [hmeta, if_neg Bool.false_ne_true] at hrun
    rcases hresult : ((g.pipeline q s d).takeRows items ⟨⟨.empty q.recordCap, 0⟩, 0, 0, 0⟩).value
      with f | ⟨after, overflow⟩
    all_goals rw [hresult] at hrun
    · cases hrun
    · cases hrun
      obtain ⟨vs, ws, calls, hvisits, hmade⟩ := takeRows_first _ items hresult
      exact ⟨vs, ws, hvisits, fun v hv => hmade.sound hv, congrArg Sink.records hmade.after_eq, rfl⟩

end Engine

/-! ## Where events come from -/

namespace Expander

variable {z : Synthesizer} {editor : Option Editor} {association : Option String} {row : Row}

/-- What happens while the variants of a row are emitted happens while one of their records is
made. -/
theorem mem_events_emit {vs : List Variant} {sink : Sink} {done : Expansion} {e : Event}
    (h : e ∈ (emit z editor association row vs sink done).events) :
    ∃ v, e ∈ (recordOf z editor association row v).events := by
  induction vs generalizing sink done with
  | nil => cases h
  | cons v vs ih =>
    rcases Nat.lt_or_ge sink.size sink.cap with hroom | hfull
    · simp only [emit, sink.ensureRoom_of_lt hroom, sink.push_of_lt hroom, Logged.events_bind,
        List.mem_append] at h
      rcases h with hfirst | hrest
      · exact ⟨v, hfirst⟩
      · rcases hvalue : (recordOf z editor association row v).value with f | _ | r <;>
          rw [hvalue] at hrest
        · cases hrest
        · exact ih hrest
        · exact ih hrest
    · simp only [emit, sink.ensureRoom_of_le hfull] at h
      cases h

theorem mem_events_expand {x : Expander} {out : Output} {e : Event}
    (h : e ∈ (x.expand z editor row out).events) :
    ∃ association v, e ∈ (recordOf z editor association row v).events := by
  simp only [expand, Logged.events_bind, Logged.events_pure, List.append_nil] at h
  obtain ⟨v, hv⟩ := mem_events_emit h
  exact ⟨_, v, hv⟩

end Expander

namespace Engine

theorem Pipeline.mem_events_takeRows {l : Pipeline} {items : List CursorItem} {p : Progress}
    {e : Event} (h : e ∈ (l.takeRows items p).events) :
    e = .read ∨ ∃ row association v, Except.ok row ∈ items ∧
      e ∈ (Expander.recordOf l.synthesizer l.editor association row v).events := by
  induction items generalizing p with
  | nil => cases h
  | cons item rest ih =>
    have hrest : ∀ p, e ∈ (l.takeRows rest p).events → e = .read ∨
        ∃ row association v, Except.ok row ∈ item :: rest ∧
          e ∈ (Expander.recordOf l.synthesizer l.editor association row v).events := by
      intro p hp
      rcases ih hp with hread | ⟨row, association, v, hrow, hv⟩
      · exact .inl hread
      · exact .inr ⟨row, association, v, List.mem_cons_of_mem _ hrow, hv⟩
    rcases item with f | row
    · simp only [takeRows, Logged.events_bind, Logged.events_pure, List.append_nil] at h
      exact .inl (List.mem_singleton.1 h)
    · simp only [takeRows, Logged.events_bind, List.mem_append] at h
      rcases h with hlog | h
      · exact .inl (List.mem_singleton.1 hlog)
      · by_cases hadmits : l.admits row
        · simp only [hadmits, if_true, Logged.events_bind, List.mem_append] at h
          rcases h with hexpand | h
          · obtain ⟨association, v, hv⟩ := Expander.mem_events_expand hexpand
            exact .inr ⟨row, association, v, List.mem_cons_self, hv⟩
          · rcases hvalue : (l.expander.expand l.synthesizer l.editor row p.output).value with
              ⟨out, f | done⟩ <;> rw [hvalue] at h
            · cases f <;> cases h
            · exact hrest _ h
        · simp only [hadmits, Bool.false_eq_true, if_false] at h
          exact hrest _ h

/-- Whatever happens in a run, an item is read or a record of a row is made. -/
theorem mem_events_process {g : Engine} {q : CatalogQuery} {s : ParameterSet} {d : FieldDirectory}
    {items : List CursorItem} {e : Event} (h : e ∈ (g.process q s d items).events) :
    e = .read ∨ ∃ row association v, Except.ok row ∈ items ∧
      e ∈ (Expander.recordOf (g.pipeline q s d).synthesizer (g.pipeline q s d).editor association row
        v).events := by
  rw [process, Logged.events_bind, List.mem_append] at h
  rcases h with htake | hrespond
  · rcases Pipeline.mem_events_takeRows htake with hread | ⟨row, association, v, hrow, hv⟩
    · exact .inl hread
    · split at hrow
      · cases hrow
      · exact .inr ⟨row, association, v, hrow, hv⟩
  · split at hrespond <;> cases hrespond

end Engine

end SkyDiscovery
