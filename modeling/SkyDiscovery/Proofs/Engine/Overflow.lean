import SkyDiscovery.Proofs.Engine.Ledger

/-!
# What an overflow says

A run asks for room before it makes a record, so that no cutout is computed in vain.  When the limit
is reached it is not known yet whether a record would have come of the next variant; an overflow says
that a variant was left, and a larger limit shows what comes of it.

* `process_overflow_iff`: there is an overflow exactly if a larger limit yields more records or
  discards more virtual ones.
* `process_overflow_without_more_records`: more records alone is not what an overflow says.
-/

namespace SkyDiscovery.Engine

namespace Tally

variable {l : Pipeline} {items : List CursorItem} {limit larger : Nat} {events events' : List Event}
  {after after' : Progress} {overflow overflow' : Bool} {vs vs' : List Visit}

/-- A limit above the number of visits is not reached. -/
theorem not_overflow_of_length_lt (h : Tally l items (.start limit) events after overflow vs)
    (hlimit : (l.visits 0 items).length < limit) : overflow = false := by
  cases overflow with
  | false => rfl
  | true =>
    obtain ⟨ws, hws⟩ := h.visits_eq_append
    have hfull := h.length_records.2 rfl
    have hrecords := List.length_filterMap_le l.record? vs
    rw [hws, List.length_append] at hlimit
    omega

/-- Without an overflow, no other run leaves more records or more discards. -/
theorem counts_le_of_not_overflow (h : Tally l items (.start limit) events after false vs)
    (h' : Tally l items (.start larger) events' after' overflow' vs') :
    (vs'.filterMap l.record?).length ≤ (vs.filterMap l.record?).length ∧
      l.discards vs' ≤ l.discards vs := by
  obtain ⟨ws, hws⟩ := h'.visits_eq_append
  obtain rfl : vs = vs' ++ ws := (h.finished rfl).1.trans hws
  rw [List.filterMap_append, List.length_append, l.discards_append]
  exact ⟨Nat.le_add_right _ _, Nat.le_add_right _ _⟩

/-- After an overflow, a run without one leaves more records or more discards. -/
theorem counts_lt_of_overflow (h : Tally l items (.start limit) events after true vs)
    (h' : Tally l items (.start larger) events' after' false vs') :
    (vs.filterMap l.record?).length < (vs'.filterMap l.record?).length ∨
      l.discards vs < l.discards vs' := by
  obtain ⟨-, v, ws, hws⟩ := h.limited rfl
  have hvs' : vs' = vs ++ v :: ws := (h'.finished rfl).1.trans hws
  have hlength := l.length_eq (v :: ws)
  rw [hvs', List.filterMap_append, List.length_append, l.discards_append]
  rw [List.length_cons] at hlength
  omega

end Tally

section

variable {g : Engine} {q : CatalogQuery} {s : ParameterSet} {d : FieldDirectory}
  {items : List CursorItem}

theorem pipeline_failsOnly_of_notLimit
    (hlocate : ∀ service ∈ g.cutouts, ∀ id, FailsOnly Failure.NotLimit (service.locate id)) :
    ∀ e ∈ (g.pipeline q s d).editor, ∀ id, FailsOnly Failure.NotLimit (e.service.locate id) := by
  intro e he
  obtain ⟨service, hservice, rfl⟩ := Option.map_eq_some_iff.1 he
  exact hlocate service hservice

theorem exists_tally_of_limit {limit : Nat} (hlimit : 1 ≤ limit)
    (hlocate : ∀ service ∈ g.cutouts, ∀ id, FailsOnly Failure.NotLimit (service.locate id))
    {r : Response} (hrun : (g.process { q with recordCap := limit } s d items).value = .ok r) :
    ∃ events after overflow vs, r = g.respond { q with recordCap := limit } d after overflow ∧
      Tally (g.pipeline q s d) items (.start limit) events after overflow vs := by
  have hmeta : ({ q with recordCap := limit } : CatalogQuery).isMetadataOnly = false := by
    simp only [CatalogQuery.isMetadataOnly, beq_eq_false_iff_ne]
    omega
  obtain ⟨after, overflow, vs, hr, htally⟩ :=
    exists_tally_of_process (pipeline_failsOnly_of_notLimit hlocate) hrun
  rw [hmeta, if_neg Bool.false_ne_true] at htally
  exact ⟨_, after, overflow, vs, hr, htally⟩

/-- Where no step fails, a run ends well under every limit, with the first records. -/
theorem exists_ok_of_no_failure
    (hlocate : ∀ service ∈ g.cutouts, ∀ id, FailsOnly Failure.NotLimit (service.locate id))
    (h : ∀ step ∈ ((g.pipeline q s d).walk 0 items).flatten, step.failure? = none) {limit : Nat}
    (hlimit : 1 ≤ limit) :
    ∃ r, (g.process { q with recordCap := limit } s d items).value = .ok r ∧
      r.records = (recordsOf ((g.pipeline q s d).walk 0 items).flatten).take limit := by
  have hanswers : Answers (follow limit ((g.pipeline q s d).walk 0 items).flatten)
      (g.process { q with recordCap := limit } s d items).value :=
    (process_follow g { q with recordCap := limit } s d items hlimit
      (pipeline_failsOnly_of_notLimit hlocate)).1
  have hfollow : ∀ f, (follow limit ((g.pipeline q s d).walk 0 items).flatten).2 ≠ .failed f := by
    intro f hf
    obtain ⟨before, step, behind, hsteps, -, -, hfails⟩ := (follow_failed_iff _ _ f).1 hf
    rw [h step (by simp [hsteps])] at hfails
    cases hfails
  obtain ⟨r, hr, -⟩ := hanswers.exists_ok hfollow
  exact ⟨r, hr, hanswers.records_eq hr⟩

end

/-- There is an overflow exactly if a larger limit yields more records, or shows that more virtual
ones are discarded. -/
theorem process_overflow_iff (g : Engine) (q : CatalogQuery) (s : ParameterSet) (d : FieldDirectory)
    (items : List CursorItem) (limit : Nat) (r : Response)
    (hlocate : ∀ service ∈ g.cutouts, ∀ id, FailsOnly Failure.NotLimit (service.locate id))
    (hlimit : 1 ≤ limit)
    (hrun : (g.process { q with recordCap := limit } s d items).value = .ok r)
    (hlarger : ∀ larger, limit < larger →
      ∃ r', (g.process { q with recordCap := larger } s d items).value = .ok r') :
    (r.overflow = true ↔ ∃ larger r', limit < larger ∧
        (g.process { q with recordCap := larger } s d items).value = .ok r' ∧
        (r.records.length < r'.records.length ∨
          r.stats.virtualDiscarded < r'.stats.virtualDiscarded)) ∧
      (r.status = "OVERFLOW" ↔ r.overflow = true) := by
  obtain ⟨events, after, overflow, vs, rfl, htally⟩ := exists_tally_of_limit hlimit hlocate hrun
  constructor
  · rw [htally.records_respond, htally.stats_respond]
    constructor
    · intro hoverflow
      obtain rfl : overflow = true := hoverflow
      -- Above the number of all visits there is no overflow.
      have hlarge : limit < limit + ((g.pipeline q s d).visits 0 items).length + 1 := by omega
      obtain ⟨r', hr'⟩ := hlarger _ hlarge
      obtain ⟨_, after', overflow', vs', rfl, htally'⟩ :=
        exists_tally_of_limit (by omega) hlocate hr'
      obtain rfl := htally'.not_overflow_of_length_lt (by omega)
      refine ⟨_, _, hlarge, hr', ?_⟩
      rw [htally'.records_respond, htally'.stats_respond]
      exact htally.counts_lt_of_overflow htally'
    · rintro ⟨larger, r', hlarge, hr', hmore⟩
      obtain ⟨_, after', overflow', vs', rfl, htally'⟩ :=
        exists_tally_of_limit (by omega) hlocate hr'
      rw [htally'.records_respond, htally'.stats_respond] at hmore
      cases overflow with
      | true => rfl
      | false =>
        have hle := htally.counts_le_of_not_overflow htally'
        simp only at hmore
        omega
  · cases overflow <;> simp [Response.status, respond]

/-! ## A row whose virtual record is discarded -/

/-- An image service that finds every file and has nothing to cut out of it. -/
def cutless : Engine :=
  (Engine.make .image Sample.imageContext).withCutouts
    ⟨fun id => .ok (some id), fun _ _ => .ok none⟩

def cutoutMode : ParameterSet :=
  ⟨.ofList [("mode", ⟨"MODE", .core, "cutout", .text "cutout"⟩)]⟩

def oneImage : List CursorItem :=
  [.ok (.ofList [("id", .text "7"), ("access_format", .text "image/fits")])]

/-- The run over one image under a limit. -/
def runOneImage (limit : Nat) : Except Failure Response :=
  (cutless.process ⟨"images", [], limit, none, none, none, none⟩ cutoutMode .empty oneImage).value

theorem cutless_locate : ∀ service ∈ cutless.cutouts, ∀ id,
    FailsOnly Failure.NotLimit (service.locate id) := by
  intro service hservice id
  cases hservice
  exact failsOnly_ok _

/-- Every limit leaves the record of the stored file, and there is no other. -/
theorem exists_ok_runOneImage {limit : Nat} (hlimit : 1 ≤ limit) :
    ∃ r, runOneImage limit = .ok r ∧ r.records.length = 1 := by
  let steps := ((cutless.pipeline ⟨"images", [], 1, none, none, none, none⟩ cutoutMode
    .empty).walk 0 oneImage).flatten
  have hsteps : (recordsOf steps).length = 1 ∧
      (steps.all fun step => step.failure?.isNone) = true := by decide +kernel
  obtain ⟨hrecord, hall⟩ := hsteps
  obtain ⟨r, hr, hrecords⟩ := exists_ok_of_no_failure cutless_locate
    (fun step hstep => Option.isNone_iff_eq_none.1 (List.all_eq_true.1 hall step hstep)) hlimit
  refine ⟨r, hr, ?_⟩
  rw [hrecords, List.length_take]
  exact (congrArg (min limit) hrecord).trans (Nat.min_eq_right hlimit)

/-- With room for one record there is an overflow, for a larger limit shows the discard. -/
theorem process_overflow_iff_one_image :
    (∀ service ∈ cutless.cutouts, ∀ id, FailsOnly Failure.NotLimit (service.locate id)) ∧
    (∀ larger, 1 < larger → ∃ r', runOneImage larger = .ok r') ∧
    ∃ r, runOneImage 1 = .ok r ∧
      (r.overflow = true ↔ ∃ larger r', 1 < larger ∧ runOneImage larger = .ok r' ∧
        (r.records.length < r'.records.length ∨
          r.stats.virtualDiscarded < r'.stats.virtualDiscarded)) ∧
      (r.status = "OVERFLOW" ↔ r.overflow = true) := by
  have hlarger : ∀ larger, 1 < larger → ∃ r', runOneImage larger = .ok r' := by
    intro larger hlarge
    obtain ⟨r', hr', -⟩ := exists_ok_runOneImage (Nat.le_of_lt hlarge)
    exact ⟨r', hr'⟩
  obtain ⟨r, hr, -⟩ := exists_ok_runOneImage (Nat.le_refl 1)
  exact ⟨cutless_locate, hlarger, r, hr,
    process_overflow_iff cutless ⟨"images", [], 1, none, none, none, none⟩ cutoutMode .empty oneImage
      1 r cutless_locate (Nat.le_refl 1) hr hlarger⟩

/-- There is an overflow although no larger limit yields more records. -/
theorem process_overflow_without_more_records :
    ∃ r, runOneImage 1 = .ok r ∧ (∀ larger, 1 < larger → ∃ r', runOneImage larger = .ok r') ∧
      r.overflow = true ∧
      ¬ (r.overflow = true ↔ ∃ larger r', 1 < larger ∧ runOneImage larger = .ok r' ∧
        r.records.length < r'.records.length) := by
  have hrun : ((runOneImage 1).toOption.any fun r => r.overflow = true ∧ r.records.length = 1) =
      true := by decide +kernel
  obtain ⟨r, hr, hcounts⟩ := exists_ok_of_any hrun
  obtain ⟨hoverflow, hone⟩ := of_decide_eq_true hcounts
  refine ⟨r, hr, fun larger hlarge => ?_, hoverflow, fun hiff => ?_⟩
  · obtain ⟨r', hr', -⟩ := exists_ok_runOneImage (Nat.le_of_lt hlarge)
    exact ⟨r', hr'⟩
  · obtain ⟨larger, r', hlarge, hr', hmore⟩ := hiff.1 hoverflow
    obtain ⟨r'', hr'', hone'⟩ := exists_ok_runOneImage (Nat.le_of_lt hlarge)
    obtain rfl : r' = r'' := Except.ok.inj (hr'.symm.trans hr'')
    rw [hone, hone'] at hmore
    exact Nat.lt_irrefl 1 hmore

end SkyDiscovery.Engine
