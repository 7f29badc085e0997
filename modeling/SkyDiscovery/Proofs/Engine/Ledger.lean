import SkyDiscovery.Proofs.Engine.Visit

/-!
# The counts of a response

A run counts the rows it reads and admits, the records it emits and the virtual ones it discards.
The variants that it makes are the first visits of its stream, each begun while there is room for a
record; every one of them is in the records or among the discarded.

* `Ledger`: how the counts, the records and the calls of the cutout task add up.
* `process_ledger`: so they do for every response, whether or not it was cut short.
-/

namespace SkyDiscovery.Engine

/-- The visits of a stream that a response has records or discards of. -/
def Pipeline.countedBy (l : Pipeline) (items : List CursorItem) (r : Response) : List Visit :=
  (l.visits 0 items).take (r.stats.recordsEmitted + r.stats.virtualDiscarded)

/-- The counts of a response to a stream under a limit agree with what the run did. -/
structure Ledger (l : Pipeline) (limit : Nat) (items : List CursorItem) (events : List Event)
    (r : Response) : Prop where
  emitted : r.stats.recordsEmitted = r.records.length ∧ r.records.length ≤ limit
  scanned : r.stats.rowsScanned = readsOf events
  matched : r.stats.rowsMatched = (l.admittedRows (items.take (readsOf events))).length ∧
    r.stats.rowsMatched ≤ r.stats.rowsScanned
  full : r.overflow = true → r.stats.recordsEmitted = limit
  /-- Without overflow all is read, and every variant is emitted or discarded. -/
  complete : r.overflow = false → readsOf events = items.length ∧
    ((l.admittedRows items).flatMap l.expander.variants).length =
      r.stats.recordsEmitted + r.stats.virtualDiscarded
  /-- The visits that are begun are those that find room for a record, and each is counted. -/
  begun : ∀ i, i < r.stats.recordsEmitted + r.stats.virtualDiscarded ↔
    i < (l.visits 0 items).length ∧
      (((l.visits 0 items).take i).filterMap l.record?).length < limit
  sound : ∀ v ∈ l.countedBy items r, ∃ made, (l.recordOf v).value = .ok made
  records : r.records = (l.countedBy items r).filterMap l.record?
  discarded : r.stats.virtualDiscarded = l.discards (l.countedBy items r) ∧
    ∀ v ∈ l.countedBy items r, l.record? v = none → v.variant.product = .virtual
  /-- The calls of the cutout task are those of the virtual visits that are counted. -/
  calls : callsOf events = (l.countedBy items r).flatMap l.calls ∧
    ∀ v, (l.calls v).length ≤ 1 ∧ (l.calls v ≠ [] → v.variant.product = .virtual)

theorem Pipeline.length_admittedRows_le (l : Pipeline) (items : List CursorItem) :
    (l.admittedRows items).length ≤ items.length :=
  List.length_filterMap_le _ _

/-- A visit asks for one cutout at most, and only if it is virtual. -/
theorem Pipeline.calls_spec (l : Pipeline) (v : Visit) :
    (l.calls v).length ≤ 1 ∧ (l.calls v ≠ [] → v.variant.product = .virtual) := by
  refine ⟨Expander.length_callsOf_recordOf_le _ _ _ _ _, fun hcalls => ?_⟩
  by_cases hproduct : v.variant.product = .virtual
  · exact hproduct
  · exact absurd (Expander.callsOf_recordOf_archival _ _ _ _ hproduct) hcalls

namespace Tally

variable {l : Pipeline} {items : List CursorItem} {limit : Nat} {events : List Event}
  {after : Progress} {overflow : Bool} {vs : List Visit} {g : Engine} {q : CatalogQuery}
  {d : FieldDirectory}

theorem visits_eq_append (h : Tally l items (.start limit) events after overflow vs) :
    ∃ ws, l.visits 0 items = vs ++ ws := by
  cases overflow with
  | false =>
    have hvs : vs = l.visits 0 items := (h.finished rfl).1
    exact ⟨[], by rw [hvs, List.append_nil]⟩
  | true =>
    obtain ⟨-, v, ws, hvisits⟩ := h.limited rfl
    exact ⟨v :: ws, hvisits⟩

/-- The records stay within the limit and reach it with an overflow. -/
theorem length_records (h : Tally l items (.start limit) events after overflow vs) :
    (vs.filterMap l.record?).length ≤ limit ∧
      (overflow = true → (vs.filterMap l.record?).length = limit) := by
  have hle := h.made.size_le (Nat.zero_le _)
  rw [h.sink_eq] at hle
  refine ⟨hle, fun hover => ?_⟩
  have hfull := (h.limited hover).1
  rw [h.sink_eq] at hfull
  exact Nat.le_antisymm hle hfull

/-- The visits that find room are those that were made. -/
theorem lt_length_iff (h : Tally l items (.start limit) events after overflow vs) (i : Nat) :
    i < vs.length ↔ i < (l.visits 0 items).length ∧
      (((l.visits 0 items).take i).filterMap l.record?).length < limit := by
  obtain ⟨ws, hws⟩ := h.visits_eq_append
  constructor
  · intro hi
    have hroom := h.made.room hi
    rw [Sink.size_extend] at hroom
    rw [hws, List.take_append_of_le_length (Nat.le_of_lt hi), List.length_append]
    exact ⟨by omega, by simpa [Progress.start, Sink.empty, Sink.size] using hroom⟩
  · rintro ⟨hi, hroom⟩
    rcases Nat.lt_or_ge i vs.length with hlt | hge
    · exact hlt
    · exfalso
      cases overflow with
      | false =>
        have hvs : vs = l.visits 0 items := (h.finished rfl).1
        rw [hvs] at hge
        omega
      | true =>
        -- All visits made come before, and they filled the sink.
        have hfull := h.length_records.2 rfl
        rw [hws, List.take_append, List.filterMap_append, List.length_append,
          List.take_of_length_le hge] at hroom
        omega

/-- The records and the discards are as many as the visits made. -/
theorem length_eq (h : Tally l items (.start limit) events after overflow vs) :
    vs.length = (g.respond q d after overflow).stats.recordsEmitted +
      (g.respond q d after overflow).stats.virtualDiscarded := by
  rw [h.stats_respond, ← l.length_eq]

theorem countedBy_respond (h : Tally l items (.start limit) events after overflow vs) :
    l.countedBy items (g.respond q d after overflow) = vs := by
  obtain ⟨ws, hws⟩ := h.visits_eq_append
  rw [Pipeline.countedBy, ← h.length_eq, hws, List.take_left]

/-- The counts of the response to what a run has made add up. -/
theorem ledger (h : Tally l items (.start limit) events after overflow vs) :
    Ledger l limit items events (g.respond q d after overflow) := by
  constructor
  case emitted =>
    rw [h.stats_respond, h.records_respond]
    exact ⟨rfl, h.length_records.1⟩
  case scanned => rw [h.stats_respond]
  case matched =>
    rw [h.stats_respond]
    exact ⟨rfl, Nat.le_trans (l.length_admittedRows_le _) (List.length_take_le _ _)⟩
  case full =>
    rw [h.stats_respond]
    exact h.length_records.2
  case complete =>
    intro hover
    obtain ⟨hvs, hreads⟩ := h.finished hover
    rw [← h.length_eq, ← l.variant_visits 0, List.length_map, hvs]
    exact ⟨hreads, rfl⟩
  case begun =>
    rw [← h.length_eq]
    exact h.lt_length_iff
  case sound =>
    rw [h.countedBy_respond]
    exact fun v hv => h.made.sound hv
  case records => rw [h.countedBy_respond, h.records_respond]
  case discarded =>
    rw [h.countedBy_respond, h.stats_respond]
    exact ⟨rfl, fun v hv => h.made.virtual_of_none hv⟩
  case calls =>
    rw [h.countedBy_respond]
    exact ⟨h.made.calls_eq, l.calls_spec⟩

end Tally

/-- The counts of every response add up. -/
theorem process_ledger (g : Engine) (q : CatalogQuery) (s : ParameterSet) (d : FieldDirectory)
    (items : List CursorItem) (r : Response)
    (hlocate : ∀ service ∈ g.cutouts, ∀ id f, service.locate id = .error f →
      ∃ reason, f = .catalog reason)
    (hcap : 1 ≤ q.recordCap) (hrun : (g.process q s d items).value = .ok r) :
    Ledger (g.pipeline q s d) q.recordCap items (g.process q s d items).events r := by
  have hmeta : q.isMetadataOnly = false := by
    simp only [CatalogQuery.isMetadataOnly, beq_eq_false_iff_ne]
    omega
  obtain ⟨after, overflow, vs, rfl, htally⟩ :=
    exists_tally_of_process (pipeline_failsOnly hlocate) hrun
  rw [hmeta, if_neg Bool.false_ne_true] at htally
  exact htally.ledger

/-- The second of two rows is interrupted, and the cutout of the first was discarded. -/
theorem process_ledger_interrupted :
    let g := (Engine.make .image Sample.imageContext).withCutouts
      ⟨fun id => .ok (some id), fun _ _ => .ok none⟩
    let q : CatalogQuery := ⟨"images", [], 2, none, none, none, none⟩
    let s : ParameterSet :=
      ⟨Dictionary.empty.insert "mode" ⟨"MODE", .core, "cutout", .text "cutout"⟩⟩
    let items : List CursorItem :=
      [.ok (.ofList [("id", .text "7"), ("access_format", .text "image/fits")]),
        .ok (.ofList [("id", .text "8"), ("access_format", .text "image/fits")])]
    ∃ r, (∀ service ∈ g.cutouts, ∀ id f, service.locate id = .error f →
        ∃ reason, f = .catalog reason) ∧
      1 ≤ q.recordCap ∧ (g.process q s .empty items).value = .ok r ∧
      r.overflow = true ∧ r.stats = ⟨2, 2, 2, 1⟩ ∧
      Ledger (g.pipeline q s .empty) q.recordCap items (g.process q s .empty items).events r := by
  intro g q s items
  have hlocate : ∀ service ∈ g.cutouts, ∀ id f, service.locate id = .error f →
      ∃ reason, f = .catalog reason := by
    intro service hservice id f hf
    cases hservice
    cases hf
  have hcap : 1 ≤ q.recordCap := by decide
  have hrun : ((g.process q s .empty items).value.toOption.any fun r =>
      r.overflow = true ∧ r.stats = ⟨2, 2, 2, 1⟩) = true := by decide +kernel
  obtain ⟨r, hr, hcounts⟩ := exists_ok_of_any hrun
  obtain ⟨hoverflow, hstats⟩ := of_decide_eq_true hcounts
  exact ⟨r, hlocate, hcap, hr, hoverflow, hstats,
    process_ledger g q s .empty items r hlocate hcap hr⟩

end SkyDiscovery.Engine
