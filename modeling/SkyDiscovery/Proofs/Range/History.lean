import SkyDiscovery.Proofs.Range.Grammar

/-!
# Range lists and what was done to them

An ordered list is pushed ranges, reads texts and is set properties, in any sequence.  What comes of
it is told by a log: the ranges that the list took and the properties that were set, one after the
other, also those of a text that was read up to a fault.  Whatever part of the log has happened, the
list holds just the ranges of the log, sorted, and is of the type of the first of them.

* `replay_changesOfAll`: the log of a sequence of operations leads to what the operations lead to.
* `Records.make`, `Records.replay`: a list records a log; one more change, and any number of them.
* `records_throughout`: an ordered list records its log at every point.
-/

namespace SkyDiscovery.RangeList

open Text

/-! ## Operations and their logs -/

/-- A use of a list.  The bounds of a range that is pushed are of one type. -/
inductive Operation where
  | push (r : Range) (uniform : r.Uniform)
  | extend (cs : List Char)
  | setProperty (key : String) (value : Option String)

/-- What a list takes at once: a range, or a property with its value. -/
inductive Change where
  | range (r : Range)
  | property (p : String × String)
  deriving DecidableEq

/-- The list after an operation, whether this succeeds or not. -/
def perform (s : RangeList) : Operation → RangeList
  | .push r _ =>
    match s.push r with
    | .ok t => t
    | .error _ => s
  | .extend cs => (s.extend cs).1
  | .setProperty key value => s.setProperty key value

def performAll (s : RangeList) (ops : List Operation) : RangeList :=
  ops.foldl perform s

/-- The ranges of elements, up to the first that is not read or not taken. -/
def rangesTaken (s : RangeList) : List (List Char) → List Range
  | [] => []
  | e :: es =>
    match s.readRange e with
    | .error _ => []
    | .ok r =>
      match s.push r with
      | .error _ => []
      | .ok t => r :: t.rangesTaken es

/-- The properties that items set, up to the first without a name. -/
def propertiesSet (is : List (List Char)) : List (String × String) :=
  (is.takeWhile fun i => !decide (IsUnnamed i)).map setting

/-- The log of an operation. -/
def changes (s : RangeList) : Operation → List Change
  | .push r _ =>
    match s.push r with
    | .ok _ => [.range r]
    | .error _ => []
  | .extend cs =>
    (s.rangesTaken (partsOf cs).1).map .range ++
      match (s.addElements (partsOf cs).1).2 with
      | .ok _ => (propertiesSet (partsOf cs).2).map .property
      | .error _ => []
  | .setProperty key value => [.property (key, value.getD "true")]

def changesOfAll (s : RangeList) : List Operation → List Change
  | [] => []
  | op :: ops => s.changes op ++ (s.perform op).changesOfAll ops

/-! ## Replaying a log -/

/-- Makes one change. -/
def make (s : RangeList) : Change → Except RangeFault RangeList
  | .range r => s.push r
  | .property p => .ok (s.setProperty p.1 (some p.2))

/-- Makes one change after the other, none of which may be refused. -/
def replay (s : RangeList) (log : List Change) : Except RangeFault RangeList :=
  log.foldlM make s

theorem replay_append (s : RangeList) (log log' : List Change) :
    s.replay (log ++ log') = s.replay log >>= (·.replay log') :=
  List.foldlM_append

theorem replay_cons_of_ok {s t : RangeList} {c : Change} (h : s.make c = .ok t)
    (log : List Change) : s.replay (c :: log) = t.replay log := by
  rw [replay, List.foldlM_cons, h]
  rfl

theorem replay_rangesTaken (s : RangeList) (es : List (List Char)) :
    s.replay ((s.rangesTaken es).map .range) = .ok (s.addElements es).1 := by
  induction es generalizing s with
  | nil => rfl
  | cons e es ih =>
    rw [rangesTaken, addElements]
    cases s.readRange e with
    | error f => rfl
    | ok r =>
      show s.replay (List.map .range (match s.push r with
        | .error _ => []
        | .ok t => r :: t.rangesTaken es)) = .ok (match s.push r with
        | .error f => (s, Except.error f)
        | .ok t => ((t.addElements es).1, (t.addElements es).2.map (· + 1))).1
      cases hpush : s.push r with
      | error f => rfl
      | ok t => exact (@replay_cons_of_ok s t (.range r) hpush _).trans (ih t)

theorem replay_propertiesSet (s : RangeList) (ps : List (String × String)) :
    s.replay (ps.map .property) = .ok (s.setProperties ps) := by
  induction ps generalizing s with
  | nil => rfl
  | cons p ps ih => exact ih (s.setProperty p.1 (some p.2))

theorem replay_changes (s : RangeList) (op : Operation) :
    s.replay (s.changes op) = .ok (s.perform op) := by
  cases op with
  | push r uniform =>
    rw [changes, perform]
    cases hpush : s.push r with
    | error f => rfl
    | ok t => exact @replay_cons_of_ok s t (.range r) hpush []
  | extend cs =>
    rw [changes, perform, replay_append, replay_rangesTaken, extend_eq_addParts, addParts]
    rcases s.addElements (partsOf cs).1 with ⟨t, f | n⟩
    · rfl
    · rw [t.addProperties_fst isItem_of_mem_partsOf.2]
      exact t.replay_propertiesSet _
  | setProperty key value => rfl

/-- The log of operations leads to what the operations lead to. -/
theorem replay_changesOfAll (s : RangeList) (ops : List Operation) :
    s.replay (s.changesOfAll ops) = .ok (s.performAll ops) := by
  induction ops generalizing s with
  | nil => rfl
  | cons op ops ih =>
    rw [changesOfAll, replay_append, replay_changes]
    exact ih (s.perform op)

/-! ## Ranges of one type -/

/-- A range that is taken has bounds of one type. -/
def Change.Uniform : Change → Prop
  | .range r => r.Uniform
  | .property _ => True

theorem uniform_of_mem_rangesTaken {s : RangeList} {es : List (List Char)}
    (hes : ∀ e ∈ es, IsItem isListMark e) {r : Range} (hr : r ∈ s.rangesTaken es) : r.Uniform := by
  induction es generalizing s with
  | nil => cases hr
  | cons e es ih =>
    rw [rangesTaken] at hr
    split at hr
    · cases hr
    · next x hx =>
      split at hr
      · cases hr
      · rcases List.mem_cons.1 hr with rfl | hr
        · exact (readable_of_readRange (hes e List.mem_cons_self) hx).1.uniform
        · exact ih (fun d hd => hes d (List.mem_cons_of_mem _ hd)) hr

theorem uniform_of_mem_changes {s : RangeList} {op : Operation} {c : Change}
    (hc : c ∈ s.changes op) : c.Uniform := by
  cases op with
  | push r uniform =>
    rw [changes] at hc
    split at hc
    · rw [List.mem_singleton.1 hc]
      exact uniform
    · cases hc
  | extend cs =>
    rw [changes, List.mem_append] at hc
    rcases hc with hc | hc
    · obtain ⟨r, hr, rfl⟩ := List.mem_map.1 hc
      exact uniform_of_mem_rangesTaken isItem_of_mem_partsOf.1 hr
    · split at hc
      · obtain ⟨p, -, rfl⟩ := List.mem_map.1 hc
        exact trivial
      · cases hc
  | setProperty key value =>
    rw [List.mem_singleton.1 hc]
    exact trivial

theorem uniform_of_mem_changesOfAll {s : RangeList} {ops : List Operation} {c : Change}
    (hc : c ∈ s.changesOfAll ops) : c.Uniform := by
  induction ops generalizing s with
  | nil => cases hc
  | cons op ops ih =>
    rcases List.mem_append.1 hc with hc | hc
    · exact uniform_of_mem_changes hc
    · exact ih hc

/-! ## Lists that record a log -/

/-- The ranges of a log. -/
def rangesOf (log : List Change) : List Range :=
  log.filterMap fun
    | .range r => some r
    | .property _ => none

/-- The settings of a log. -/
def settingsOf (log : List Change) : List (String × String) :=
  log.filterMap fun
    | .range _ => none
    | .property p => some p

/-- An ordered list holds what a log says.  Its type is the declared one, or else that of the first
range that has one, and its other ranges are of this type as well. -/
structure Records (declared : Option ValueType) (log : List Change) (s : RangeList) : Prop where
  ordered : s.ordered = true
  declares : s.declared = declared
  ranges : s.ranges = stableSort ((rangesOf log).map Range.normalize)
  type : s.type? = declared.or ((rangesOf log).findSome? Range.type?)
  typed : ∀ r ∈ s.ranges, r ≠ .any → r.type? = s.type?
  properties : Latest (settingsOf log) s.properties

variable {declared : Option ValueType} {log : List Change} {s t : RangeList}

theorem records_empty (declared : Option ValueType) :
    Records declared [] (empty declared true) where
  ordered := rfl
  declares := rfl
  ranges := by simp [empty, rangesOf, stableSort]
  type := rfl
  typed _ hr := nomatch hr
  properties := latest_nil

theorem type?_eq_none_iff_any {r : Range} : r.type? = none ↔ r = .any := by
  cases r <;> simp [Range.type?, Range.value?, Range.low?, Range.high?]

theorem Records.coherent (h : Records declared log s) : s.Coherent := by
  intro _ r hr t ht
  have hany : r ≠ .any := by
    rintro rfl
    cases ht
  rw [← h.typed r hr hany, ht]

/-- One more range. -/
theorem Records.push (h : Records declared log s) {r : Range} (hr : r.Uniform)
    (hpush : s.push r = .ok t) : Records declared (log ++ [.range r]) t := by
  obtain ⟨htakes, rfl⟩ := push_eq_ok.1 hpush
  have hranges : rangesOf (log ++ [.range r]) = rangesOf log ++ [r] := List.filterMap_append
  have hsettings : settingsOf (log ++ [.range r]) = settingsOf log :=
    List.filterMap_append.trans (List.append_nil _)
  have htype := type?_add h.coherent hr htakes
  have harrange : s.ranges = arrange s.ordered (rangesOf log) := by
    rw [h.ranges, arrange, h.ordered, if_pos rfl]
  refine ⟨h.ordered, h.declares, ?_, ?_, fun x hx hany => ?_, ?_⟩
  · rw [ranges_add harrange, arrange, h.ordered, if_pos rfl, hranges]
  · rw [htype, h.type, hranges, List.findSome?_append, List.findSome?_singleton, Option.or_assoc]
  · rw [htype]
    have hsome : ∃ u, x.type? = some u :=
      Option.ne_none_iff_exists'.1 (mt type?_eq_none_iff_any.1 hany)
    obtain ⟨u, hu⟩ := hsome
    rcases mem_add.1 hx with rfl | hx
    · rw [s.type?_entry hr] at hu ⊢
      cases hs : s.type? with
      | none => rw [Option.none_or]
      | some v => rw [Option.some_or, hu, htakes h.ordered u v hu hs]
    · have hxs := h.typed x hx hany
      rw [hu] at hxs
      rw [hu, ← hxs, Option.some_or]
  · rw [hsettings]
    exact h.properties

/-- One more property. -/
theorem Records.set (h : Records declared log s) (p : String × String) :
    Records declared (log ++ [.property p]) (s.setProperty p.1 (some p.2)) := by
  have hranges : rangesOf (log ++ [.property p]) = rangesOf log :=
    List.filterMap_append.trans (List.append_nil _)
  have hsettings : settingsOf (log ++ [.property p]) = settingsOf log ++ [p] :=
    List.filterMap_append
  refine ⟨h.ordered, h.declares, ?_, ?_, h.typed, ?_⟩
  · rw [hranges]
    exact h.ranges
  · rw [hranges]
    exact h.type
  · rw [hsettings]
    exact h.properties.set p.1 p.2

theorem Records.make (h : Records declared log s) {c : Change} (hc : c.Uniform)
    (hmake : s.make c = .ok t) : Records declared (log ++ [c]) t := by
  cases c with
  | range r => exact h.push hc hmake
  | property p =>
    cases hmake
    exact h.set p

/-- A list records whatever has been done to it. -/
theorem Records.replay (h : Records declared log s) {more : List Change}
    (hmore : ∀ c ∈ more, c.Uniform) (hreplay : s.replay more = .ok t) :
    Records declared (log ++ more) t := by
  induction more generalizing s log with
  | nil =>
    cases hreplay
    rwa [List.append_nil]
  | cons c more ih =>
    obtain ⟨u, hu, hrest⟩ := exists_of_bind (x := s.make c) hreplay
    have hu := ih (h.make (hmore c List.mem_cons_self) hu)
      (fun d hd => hmore d (List.mem_cons_of_mem _ hd)) hrest
    rwa [List.append_assoc, List.singleton_append] at hu

/-- A type once found is never changed. -/
theorem Records.type?_later (h : Records declared log s) {more : List Change}
    (ht : Records declared (log ++ more) t) {type : ValueType} (htype : s.type? = some type) :
    t.type? = some type := by
  have hranges : rangesOf (log ++ more) = rangesOf log ++ rangesOf more := List.filterMap_append
  rw [h.type, Option.or_eq_some_iff] at htype
  rw [ht.type, hranges, List.findSome?_append, Option.or_eq_some_iff]
  refine htype.imp_right fun ⟨hnone, hfirst⟩ => ⟨hnone, ?_⟩
  rw [hfirst, Option.some_or]

/-! ## Orderly lists -/

/-- What every ordered list is. -/
structure Orderly (s : RangeList) : Prop where
  sorted : Sorted s.ranges
  bounds : ∀ low high, .closed low high ∈ s.ranges → low.compare high ≠ .gt
  unmixed : s.isMixed = false

theorem isMixed_eq_false {type : Option ValueType}
    (h : ∀ r ∈ s.ranges, ∀ t, r.type? = some t → type = some t) : s.isMixed = false := by
  have hall : ∀ t ∈ s.ranges.filterMap Range.type?, type = some t := by
    intro t ht
    obtain ⟨r, hr, hrt⟩ := List.mem_filterMap.1 ht
    exact h r hr t hrt
  unfold isMixed
  split
  · rfl
  · next t ts hts =>
    rw [hts, List.forall_mem_cons] at hall
    rw [List.any_eq_false]
    intro u hu
    have hut : some t = some u := hall.1.symm.trans (hall.2 u hu)
    simp [Option.some.inj hut]

theorem Records.orderly (h : Records declared log s) : s.Orderly where
  sorted := by
    rw [h.ranges]
    exact sorted_stableSort _
  bounds low high hmem := by
    rw [h.ranges] at hmem
    exact compare_ne_gt_of_mem_arrange hmem
  unmixed := isMixed_eq_false (h.coherent h.ordered)

/-- The list that comes of an empty ordered one holds at every point what it has taken and been set
by then: the ranges sorted and with their bounds in order, the type that was declared or came first,
and of each property the latest value.  A range that is refused leaves no trace. -/
theorem records_throughout (declared : Option ValueType) (ops : List Operation) :
    let start := empty declared true
    let log := start.changesOfAll ops
    start.replay log = .ok (start.performAll ops) ∧
    (∀ past, past <+: log → ∃ s, start.replay past = .ok s ∧ Records declared past s ∧ s.Orderly ∧
      ∀ later, past <+: later → later <+: log →
        ∃ t, start.replay later = .ok t ∧ ∀ type, s.type? = some type → t.type? = some type) ∧
    ∀ (s : RangeList) (r : Range) (uniform : r.Uniform) (f : RangeFault), s.push r = .error f →
      s.perform (.push r uniform) = s ∧ s.changes (.push r uniform) = [] := by
  intro start log
  have hend : start.replay log = .ok (start.performAll ops) := start.replay_changesOfAll ops
  have hpoint : ∀ past, past <+: log →
      ∃ s, start.replay past = .ok s ∧ Records declared past s := by
    rintro past ⟨future, hfuture⟩
    rw [← hfuture, replay_append] at hend
    obtain ⟨s, hs, -⟩ := exists_of_bind hend
    refine ⟨s, hs, (records_empty declared).replay (fun c hc => ?_) hs⟩
    have hlog : c ∈ log := by
      rw [← hfuture]
      exact List.mem_append_left _ hc
    exact uniform_of_mem_changesOfAll hlog
  refine ⟨hend, fun past hpast => ?_, fun s r uniform f hpush => ?_⟩
  · obtain ⟨s, hs, hrecords⟩ := hpoint past hpast
    refine ⟨s, hs, hrecords, hrecords.orderly, fun later hlater hwithin => ?_⟩
    obtain ⟨t, ht, hrecords'⟩ := hpoint later hwithin
    obtain ⟨more, rfl⟩ := hlater
    exact ⟨t, ht, fun type htype => hrecords.type?_later hrecords' htype⟩
  · rw [perform, changes, hpush]
    exact ⟨rfl, rfl⟩

/-- Ranges with their bounds in the wrong order, a text that is read up to a fault, a range that is
refused, and properties that are set again. -/
def mixedUse : List Operation :=
  [.push (.closed (.number ⟨0x4022000000000000⟩) (.number ⟨0x3FF0000000000000⟩)) (by
      simp [Range.Uniform, Range.endpoints, Endpoint.type]),
    .extend "/2,/,x,5".toList,
    .setProperty "b" none,
    .push (.single (.text "x")) (by simp [Range.Uniform, Range.endpoints]),
    .extend "5;a=1,b=2".toList]

theorem records_throughout_of_mixedUse :
    let start := empty none true
    let log := start.changesOfAll mixedUse
    log = [.range (.closed (.number ⟨0x4022000000000000⟩) (.number ⟨0x3FF0000000000000⟩)),
      .range (.atMost (.number ⟨0x4000000000000000⟩)), .range .any, .property ("b", "true"),
      .range (.single (.number ⟨0x4014000000000000⟩)), .property ("a", "1"),
      .property ("b", "2")] ∧
    start.replay log = .ok (start.performAll mixedUse) ∧
    ∃ s, start.replay (log.take 3) = .ok s ∧ Records none (log.take 3) s ∧ s.Orderly := by
  intro start log
  obtain ⟨hend, hpoint, -⟩ := records_throughout none mixedUse
  obtain ⟨s, hs, hrecords, horderly, -⟩ := hpoint (log.take 3) (List.take_prefix 3 log)
  exact ⟨by decide +kernel, hend, s, hs, hrecords, horderly⟩

end SkyDiscovery.RangeList
