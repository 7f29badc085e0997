import SkyDiscovery.Proofs.Engine.Product

/-!
# The visits of a run

A run visits the variants of the rows it admits, in their order.  `Pipeline.visits` lists those of a
whole stream, as if there were neither a limit nor a failure; a run makes the first of them, each
while there is room.

* `Made`: what a run has done when some visits were made one after the other.
* `takeRows_made`: a run that ends well has made the first visits of its stream.

When the limit interrupts a row, what was discarded of it is not counted.  There is nothing of the
kind (`no_discards_of_interrupted`): a discarded variant is virtual, leaves the room it was given,
and has at most one variant behind it.
-/

namespace SkyDiscovery.Engine

/-- A variant of a row that a run comes to, with the association of the row. -/
structure Visit where
  row : Row
  variant : Variant
  association : Option String

namespace Pipeline

/-- The visits of a row before which `drawn` associations were drawn. -/
def visitsOf (l : Pipeline) (drawn : Nat) (row : Row) : List Visit :=
  let vs := l.expander.variants row
  vs.map fun v => ⟨row, v, (Expander.associate drawn vs.length).2⟩

/-- The visits of a stream. -/
def visits (l : Pipeline) (drawn : Nat) : List CursorItem → List Visit
  | [] => []
  | .error _ :: rest => l.visits drawn rest
  | .ok row :: rest =>
    if l.admits row then
      l.visitsOf drawn row ++
        l.visits (Expander.associate drawn (l.expander.variants row).length).1 rest
    else l.visits drawn rest

/-- The row of an item, if it is admitted. -/
def admitted? (l : Pipeline) : CursorItem → Option Row
  | .ok row => if l.admits row then some row else none
  | .error _ => none

/-- The rows of a stream that are admitted. -/
def admittedRows (l : Pipeline) (items : List CursorItem) : List Row :=
  items.filterMap l.admitted?

def recordOf (l : Pipeline) (v : Visit) : Logged (Except Failure (Option Record)) :=
  Expander.recordOf l.synthesizer l.editor v.association v.row v.variant

/-- The record that comes of a visit, unless it is discarded or fails. -/
def record? (l : Pipeline) (v : Visit) : Option Record :=
  match (l.recordOf v).value with
  | .ok r => r
  | .error _ => none

/-- The calls of the cutout task in a visit. -/
def calls (l : Pipeline) (v : Visit) : List (String × CutoutRequest) :=
  callsOf (l.recordOf v).events

/-- The number of visits of which no record comes. -/
def discards (l : Pipeline) (vs : List Visit) : Nat :=
  vs.countP fun v => l.record? v = none

variable (l : Pipeline)

theorem record?_of_ok {l : Pipeline} {v : Visit} {r : Option Record}
    (h : (l.recordOf v).value = .ok r) : l.record? v = r := by
  rw [record?, h]

theorem record?_product {l : Pipeline} {v : Visit} {r : Record} (h : l.record? v = some r) :
    r.product = v.variant.product := by
  unfold record? at h
  split at h
  · next made hmade =>
    rw [h] at hmade
    exact Expander.recordOf_product hmade
  · cases h

theorem filterMap_record?_cons {l : Pipeline} {v : Visit} {r : Option Record}
    (h : (l.recordOf v).value = .ok r) (vs : List Visit) :
    (v :: vs).filterMap l.record? = r.toList ++ vs.filterMap l.record? := by
  rw [List.filterMap_cons, record?_of_ok h]
  cases r <;> rfl

/-- A visit that is made leaves a record or is discarded. -/
theorem length_eq (vs : List Visit) :
    vs.length = (vs.filterMap l.record?).length + l.discards vs := by
  rw [List.length_filterMap_eq_countP, discards,
    List.length_eq_countP_add_countP fun v => (l.record? v).isSome]
  simp

@[simp] theorem discards_nil : l.discards [] = 0 := rfl

@[simp] theorem discards_append (us vs : List Visit) :
    l.discards (us ++ vs) = l.discards us + l.discards vs :=
  List.countP_append

theorem variant_visitsOf (drawn : Nat) (row : Row) :
    (l.visitsOf drawn row).map Visit.variant = l.expander.variants row := by
  simp [visitsOf, Function.comp_def]

@[simp] theorem admittedRows_nil : l.admittedRows [] = [] := rfl

theorem admittedRows_cons_admitted {row : Row} (h : l.admits row) (rest : List CursorItem) :
    l.admittedRows (.ok row :: rest) = row :: l.admittedRows rest := by
  simp [admittedRows, admitted?, h]

theorem admittedRows_cons_not_admitted {row : Row} (h : ¬ l.admits row) (rest : List CursorItem) :
    l.admittedRows (.ok row :: rest) = l.admittedRows rest := by
  simp [admittedRows, admitted?, h]

/-- The visits are the variants of the rows that are admitted. -/
theorem variant_visits (drawn : Nat) (items : List CursorItem) :
    (l.visits drawn items).map Visit.variant =
      (l.admittedRows items).flatMap l.expander.variants := by
  induction items generalizing drawn with
  | nil => rfl
  | cons item rest ih =>
    rcases item with f | row
    · exact ih drawn
    · by_cases h : l.admits row
      · rw [l.admittedRows_cons_admitted h, visits, if_pos h, List.map_append, variant_visitsOf, ih,
          List.flatMap_cons]
      · rw [l.admittedRows_cons_not_admitted h, visits, if_neg h, ih]

end Pipeline

/-! ## Visits made one after the other -/

/-- The visits are made one after the other, each while the sink has room; they take the sink to
another and call the cutout task on the way. -/
inductive Made (l : Pipeline) : Sink → List Visit → Sink → List (String × CutoutRequest) → Prop
  | nil (sink : Sink) : Made l sink [] sink []
  | cons {sink after : Sink} {v : Visit} {vs : List Visit} {r : Option Record}
      {calls : List (String × CutoutRequest)} (room : sink.size < sink.cap)
      (made : (l.recordOf v).value = .ok r) (rest : Made l (sink.extend r.toList) vs after calls) :
      Made l sink (v :: vs) after (l.calls v ++ calls)

namespace Made

variable {l : Pipeline} {sink middle after : Sink} {us vs : List Visit}
  {calls more : List (String × CutoutRequest)}

theorem append (hu : Made l sink us middle calls) (hv : Made l middle vs after more) :
    Made l sink (us ++ vs) after (calls ++ more) := by
  induction hu with
  | nil => exact hv
  | cons room made _ ih =>
    rw [List.cons_append, List.append_assoc]
    exact cons room made (ih hv)

theorem sound (h : Made l sink vs after calls) {v : Visit} (hv : v ∈ vs) :
    ∃ r, (l.recordOf v).value = .ok r := by
  induction h with
  | nil => cases hv
  | cons _ made _ ih =>
    rcases List.mem_cons.1 hv with rfl | hv
    · exact ⟨_, made⟩
    · exact ih hv

theorem after_eq (h : Made l sink vs after calls) :
    after = sink.extend (vs.filterMap l.record?) := by
  induction h with
  | nil sink => exact sink.extend_nil.symm
  | cons _ made _ ih => rw [ih, Sink.extend_extend, Pipeline.filterMap_record?_cons made]

theorem calls_eq (h : Made l sink vs after calls) : calls = vs.flatMap l.calls := by
  induction h with
  | nil => rfl
  | cons _ _ _ ih => rw [ih, List.flatMap_cons]

/-- Each visit is begun while the sink has room. -/
theorem room (h : Made l sink vs after calls) {i : Nat} (hi : i < vs.length) :
    (sink.extend ((vs.take i).filterMap l.record?)).size < sink.cap := by
  induction h generalizing i with
  | nil => simp at hi
  | cons room made _ ih =>
    cases i with
    | zero => simpa using room
    | succ i =>
      rw [List.take_succ_cons, Pipeline.filterMap_record?_cons made, ← Sink.extend_extend]
      exact ih (Nat.lt_of_succ_lt_succ hi)

theorem size_le (h : Made l sink vs after calls) (hsize : sink.size ≤ sink.cap) :
    after.size ≤ after.cap := by
  induction h with
  | nil => exact hsize
  | @cons sink after v vs r calls room _ _ ih =>
    apply ih
    rw [Sink.size_extend, Sink.cap_extend]
    cases r <;> simp <;> omega

/-- A discarded visit is one of a virtual variant. -/
theorem virtual_of_none (h : Made l sink vs after calls) {v : Visit} (hv : v ∈ vs)
    (hnone : l.record? v = none) : v.variant.product = .virtual := by
  obtain ⟨r, hr⟩ := h.sound hv
  rw [Pipeline.record?_of_ok hr] at hnone
  rw [hnone] at hr
  exact Expander.virtual_of_discarded hr

/-- Of a row that the limit interrupts, nothing was discarded. -/
theorem no_discards_of_interrupted (h : Made l sink us after calls) {drawn : Nat} {row : Row}
    {v : Visit} (hrow : l.visitsOf drawn row = us ++ v :: vs) (hfull : after.cap ≤ after.size) :
    l.discards us = 0 := by
  rw [Pipeline.discards, List.countP_eq_zero]
  intro u hu hnone
  rw [decide_eq_true_eq] at hnone
  obtain ⟨before, behind, rfl⟩ := List.append_of_mem hu
  -- The discarded visit is the last before the interruption ...
  have hvariants : l.expander.variants row = before.map Visit.variant ++
      u.variant :: (behind.map Visit.variant ++ v.variant :: vs.map Visit.variant) := by
    rw [← l.variant_visitsOf drawn row, hrow]
    simp
  have hlength := Variant.length_after_virtual_le hvariants (h.virtual_of_none hu hnone)
  obtain rfl : behind = [] := by
    rw [← List.length_eq_zero_iff]
    simp only [List.length_append, List.length_map, List.length_cons] at hlength
    omega
  -- ... and it left the room that it was given.
  have hroom := h.room (i := before.length) (by simp)
  rw [List.take_left] at hroom
  rw [h.after_eq, List.filterMap_append, List.filterMap_cons_none hnone, List.filterMap_nil,
    List.append_nil] at hfull
  exact absurd hroom (Nat.not_lt.2 hfull)

end Made

/-! ## Rows and streams -/

/-- What comes of visits that are begun after some discards: either all are made, or the sink is
full before one of them, or a failure occurs. -/
def Emits (l : Pipeline) (sink : Sink) (vs : List Visit) (discarded : Nat)
    (result : Logged (Sink × Except Failure Expansion)) : Prop :=
  match result.value with
  | (after, .ok done) =>
    Made l sink vs after (callsOf result.events) ∧ done.discarded = discarded + l.discards vs
  | (after, .error (.recordLimit _)) => ∃ us v ws, vs = us ++ v :: ws ∧
    Made l sink us after (callsOf result.events) ∧ after.cap ≤ after.size
  | (_, .error _) => True

theorem Emits.cons {l : Pipeline} {sink middle : Sink} {v : Visit} {vs : List Visit}
    {discarded counted : Nat} {r : Option Record}
    {k : Except Failure (Option Record) → Logged (Sink × Except Failure Expansion)}
    (hroom : sink.size < sink.cap) (hv : (l.recordOf v).value = .ok r)
    (hmiddle : middle = sink.extend r.toList) (hcounted : counted = discarded + l.discards [v])
    (h : Emits l middle vs counted (k (.ok r))) :
    Emits l sink (v :: vs) discarded (l.recordOf v >>= k) := by
  subst hmiddle hcounted
  unfold Emits at h ⊢
  rw [Logged.value_bind, Logged.events_bind, hv, callsOf_append]
  rcases hr : (k (.ok r)).value with ⟨after, f | done⟩
  · cases f with
    | recordLimit n =>
      rw [hr] at h
      obtain ⟨us, u, ws, rfl, hmade, hfull⟩ := h
      exact ⟨v :: us, u, ws, rfl, .cons hroom hv hmade, hfull⟩
    | _ => trivial
  · rw [hr] at h
    obtain ⟨hmade, hdiscarded⟩ := h
    refine ⟨.cons hroom hv hmade, ?_⟩
    rw [hdiscarded, Nat.add_assoc, ← l.discards_append, List.singleton_append]

theorem emit_made (l : Pipeline)
    (h : ∀ e ∈ l.editor, ∀ id, FailsOnly Failure.NotLimit (e.service.locate id))
    (association : Option String) (row : Row) (vs : List Variant) (sink : Sink)
    (done : Expansion) :
    Emits l sink (vs.map (Visit.mk row · association)) done.discarded
      (Expander.emit l.synthesizer l.editor association row vs sink done) := by
  induction vs generalizing sink done with
  | nil => exact ⟨.nil sink, rfl⟩
  | cons v vs ih =>
    rcases Nat.lt_or_ge sink.size sink.cap with hroom | hfull
    · simp only [Expander.emit, sink.ensureRoom_of_lt hroom, sink.push_of_lt hroom, List.map_cons]
      rcases hv : (l.recordOf ⟨row, v, association⟩).value with f | _ | r
      · have hlimit := Expander.recordOf_failsOnly
          (l.synthesizer.synthesize_failsOnly row v) h association f hv
        unfold Emits
        rw [Logged.value_bind, show (Expander.recordOf _ _ _ _ _).value = _ from hv]
        cases f with
        | recordLimit n => exact absurd rfl (hlimit n)
        | _ => trivial
      · refine Emits.cons hroom hv sink.extend_nil.symm ?_ (ih sink _)
        simp [Pipeline.discards, Pipeline.record?_of_ok hv]
      · refine Emits.cons hroom hv rfl ?_ (ih (sink.extend [r]) _)
        simp [Pipeline.discards, Pipeline.record?_of_ok hv]
    · simp only [Expander.emit, sink.ensureRoom_of_le hfull]
      exact ⟨[], _, _, rfl, .nil sink, hfull⟩

theorem expand_made (l : Pipeline)
    (h : ∀ e ∈ l.editor, ∀ id, FailsOnly Failure.NotLimit (e.service.locate id)) (row : Row)
    (out : Output) :
    let result := l.expander.expand l.synthesizer l.editor row out
    result.value.1.associations =
        (Expander.associate out.associations (l.expander.variants row).length).1 ∧
      Emits l out.sink (l.visitsOf out.associations row) 0
        ⟨result.events, result.value.1.sink, result.value.2⟩ := by
  have hemit := emit_made l h
    (Expander.associate out.associations (l.expander.variants row).length).2 row
    (l.expander.variants row) out.sink ⟨0, 0⟩
  refine ⟨rfl, ?_⟩
  simp only [Expander.expand, Logged.events_bind, Logged.events_pure, Logged.value_bind,
    Logged.value_pure, List.append_nil]
  exact hemit

/-- A run over a stream has made some visits and counted what it met. -/
structure Tally (l : Pipeline) (items : List CursorItem) (before : Progress)
    (events : List Event) (after : Progress) (overflow : Bool) (vs : List Visit) : Prop where
  made : Made l before.output.sink vs after.output.sink (callsOf events)
  discarded : after.discarded = before.discarded + l.discards vs
  scanned : after.scanned = before.scanned + readsOf events
  matched : after.matched = before.matched + (l.admittedRows (items.take (readsOf events))).length
  finished : overflow = false →
    vs = l.visits before.output.associations items ∧ readsOf events = items.length
  limited : overflow = true → after.output.sink.cap ≤ after.output.sink.size ∧
    ∃ v ws, l.visits before.output.associations items = vs ++ v :: ws

namespace Tally

variable {l : Pipeline} {row : Row} {rest : List CursorItem} {p after : Progress}
  {events more : List Event} {overflow : Bool} {us vs : List Visit} {sink : Sink}

/-- A row that is not admitted only counts as read. -/
theorem skip (hadmits : ¬ l.admits row)
    (h : Tally l rest { p with scanned := p.scanned + 1 } more after overflow vs) :
    Tally l (.ok row :: rest) p ((Logged.log .read).events ++ more) after overflow vs where
  made := by simpa using h.made
  discarded := h.discarded
  scanned := by
    simp only [h.scanned, readsOf_append, readsOf_read]
    omega
  matched := by
    simp [h.matched, Nat.add_comm 1, l.admittedRows_cons_not_admitted hadmits]
  finished hover := by
    obtain ⟨rfl, hlength⟩ := h.finished hover
    simp [Pipeline.visits, hadmits, hlength, Nat.add_comm 1]
  limited hover := by
    obtain ⟨hfull, v, ws, hvisits⟩ := h.limited hover
    exact ⟨hfull, v, ws, by simpa [Pipeline.visits, hadmits] using hvisits⟩

/-- The visits of a row that are all made come before those of the rest. -/
theorem take (hadmits : l.admits row) (hreads : readsOf events = 0)
    (hmade : Made l p.output.sink (l.visitsOf p.output.associations row) sink (callsOf events))
    (h : Tally l rest
      ⟨⟨sink, (Expander.associate p.output.associations (l.expander.variants row).length).1⟩,
        p.scanned + 1, p.matched + 1,
        p.discarded + l.discards (l.visitsOf p.output.associations row)⟩ more after overflow vs) :
    Tally l (.ok row :: rest) p ((Logged.log .read).events ++ (events ++ more)) after overflow
      (l.visitsOf p.output.associations row ++ vs) where
  made := by simpa using hmade.append h.made
  discarded := by
    rw [h.discarded, l.discards_append, Nat.add_assoc]
  scanned := by
    simp only [h.scanned, readsOf_append, readsOf_read, hreads]
    omega
  matched := by
    simp only [h.matched, readsOf_append, readsOf_read, hreads, Nat.zero_add, Nat.add_comm 1,
      List.take_succ_cons, l.admittedRows_cons_admitted hadmits, List.length_cons]
    omega
  finished hover := by
    obtain ⟨rfl, hlength⟩ := h.finished hover
    simp [Pipeline.visits, hadmits, hreads, hlength, Nat.add_comm 1]
  limited hover := by
    obtain ⟨hfull, v, ws, hvisits⟩ := h.limited hover
    exact ⟨hfull, v, ws, by simp [Pipeline.visits, hadmits, hvisits]⟩

/-- When the limit interrupts a row, the visits made of it are the last, and none of them was
discarded. -/
theorem interrupt (hadmits : l.admits row) (hreads : readsOf events = 0) {drawn : Nat} {v : Visit}
    (hvisits : l.visitsOf p.output.associations row = us ++ v :: vs)
    (hmade : Made l p.output.sink us sink (callsOf events)) (hfull : sink.cap ≤ sink.size) :
    Tally l (.ok row :: rest) p ((Logged.log .read).events ++ events)
      ⟨⟨sink, drawn⟩, p.scanned + 1, p.matched + 1, p.discarded⟩ true us where
  made := by simpa using hmade
  discarded := by simp [hmade.no_discards_of_interrupted hvisits hfull]
  scanned := by simp [hreads]
  matched := by simp [hreads, l.admittedRows_cons_admitted hadmits]
  finished := nofun
  limited _ := by
    rw [Pipeline.visits, if_pos hadmits, hvisits, List.append_assoc]
    exact ⟨hfull, v, _, rfl⟩

end Tally

/-- A run that ends well has made the first visits of its stream. -/
theorem takeRows_made (l : Pipeline)
    (h : ∀ e ∈ l.editor, ∀ id, FailsOnly Failure.NotLimit (e.service.locate id))
    (items : List CursorItem) {p after : Progress} {overflow : Bool}
    (hrun : (l.takeRows items p).value = .ok (after, overflow)) :
    ∃ vs, Tally l items p (l.takeRows items p).events after overflow vs := by
  induction items generalizing p with
  | nil =>
    cases hrun
    exact ⟨[], .nil _, by simp, rfl, rfl, fun _ => ⟨rfl, rfl⟩, nofun⟩
  | cons item rest ih =>
    rcases item with f | row
    · cases hrun
    · by_cases hadmits : l.admits row
      · obtain ⟨hdrawn, hemits⟩ := expand_made l h row p.output
        have hreads := readsOf_expand l.expander l.synthesizer l.editor row p.output
        simp only [Pipeline.takeRows, hadmits, if_true, Logged.value_bind,
          Logged.events_bind] at hrun ⊢
        rcases he : (l.expander.expand l.synthesizer l.editor row p.output).value with
          ⟨⟨sink, drawn⟩, f | ⟨emitted, discarded⟩⟩
        all_goals rw [he] at hrun hdrawn hemits
        · cases f with
          | recordLimit n =>
            cases hrun
            obtain ⟨us, v, vs, hvisits, hmade, hfull⟩ := hemits
            rw [Logged.events_pure, List.append_nil]
            exact ⟨us, .interrupt hadmits hreads hvisits hmade hfull⟩
          | _ => cases hrun
        · obtain rfl : drawn = _ := hdrawn
          obtain ⟨hmade, hdiscarded⟩ := hemits
          obtain rfl : discarded = l.discards (l.visitsOf p.output.associations row) :=
            hdiscarded.trans (Nat.zero_add _)
          obtain ⟨vs, htally⟩ := ih hrun
          exact ⟨_, htally.take hadmits hreads hmade⟩
      · simp only [Pipeline.takeRows, hadmits, Bool.false_eq_true, if_false, Logged.value_bind,
          Logged.events_bind] at hrun ⊢
        obtain ⟨vs, htally⟩ := ih hrun
        exact ⟨vs, htally.skip hadmits⟩

/-- Where the locator fails for the catalog only, no failure of it reports a full sink. -/
theorem pipeline_failsOnly {g : Engine} {q : CatalogQuery} {s : ParameterSet} {d : FieldDirectory}
    (hlocate : ∀ service ∈ g.cutouts, ∀ id f, service.locate id = .error f →
      ∃ reason, f = .catalog reason) :
    ∀ e ∈ (g.pipeline q s d).editor, ∀ id, FailsOnly Failure.NotLimit (e.service.locate id) := by
  intro e he id f hf n
  obtain ⟨service, hservice, rfl⟩ := Option.map_eq_some_iff.1 he
  obtain ⟨reason, rfl⟩ := hlocate service hservice id f hf
  simp

/-! ## Responses -/

/-- A run that has not begun. -/
def Progress.start (limit : Nat) : Progress :=
  ⟨⟨.empty limit, 0⟩, 0, 0, 0⟩

namespace Tally

variable {l : Pipeline} {items : List CursorItem} {limit : Nat} {events : List Event}
  {after : Progress} {overflow : Bool} {vs : List Visit}

/-- The sink holds the records of the visits made. -/
theorem sink_eq (h : Tally l items (.start limit) events after overflow vs) :
    after.output.sink = ⟨limit, vs.filterMap l.record?⟩ := by
  rw [h.made.after_eq]
  rfl

variable (g : Engine) (q : CatalogQuery) (d : FieldDirectory)

theorem records_respond (h : Tally l items (.start limit) events after overflow vs) :
    (g.respond q d after overflow).records = vs.filterMap l.record? :=
  congrArg Sink.records h.sink_eq

theorem stats_respond (h : Tally l items (.start limit) events after overflow vs) :
    (g.respond q d after overflow).stats =
      ⟨readsOf events, (l.admittedRows (items.take (readsOf events))).length,
        (vs.filterMap l.record?).length, l.discards vs⟩ := by
  simp [respond, Sink.size, Progress.start, h.sink_eq, h.scanned, h.matched, h.discarded]

end Tally

/-- A response counts what the run over its stream has made; a query for no records reads
nothing. -/
theorem exists_tally_of_process {g : Engine} {q : CatalogQuery} {s : ParameterSet}
    {d : FieldDirectory} {items : List CursorItem} {r : Response}
    (h : ∀ e ∈ (g.pipeline q s d).editor, ∀ id, FailsOnly Failure.NotLimit (e.service.locate id))
    (hrun : (g.process q s d items).value = .ok r) :
    ∃ after overflow vs, r = g.respond q d after overflow ∧
      Tally (g.pipeline q s d) (if q.isMetadataOnly then [] else items) (.start q.recordCap)
        (g.process q s d items).events after overflow vs := by
  simp only [process, Logged.value_bind, Logged.events_bind] at hrun ⊢
  generalize (if q.isMetadataOnly then [] else items) = read at hrun ⊢
  rcases hresult : ((g.pipeline q s d).takeRows read ⟨⟨.empty q.recordCap, 0⟩, 0, 0, 0⟩).value with
    f | ⟨after, overflow⟩
  · rw [hresult] at hrun
    cases hrun
  · rw [hresult] at hrun
    cases hrun
    obtain ⟨vs, htally⟩ := takeRows_made _ h read hresult
    refine ⟨after, overflow, vs, rfl, ?_⟩
    rw [Logged.events_pure, List.append_nil]
    exact htally

end SkyDiscovery.Engine
