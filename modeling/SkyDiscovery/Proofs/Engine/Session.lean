import SkyDiscovery.Proofs.Engine.Origin

/-!
# Sessions

A run opens a session of the catalog at most once, and not before it knows its query and its fields.
A session that was opened is asked that one query and is closed exactly once, as the last thing that
happens; rows are read, files located and cutouts computed in between.

* `isWork_of_mem_events_process`: the rows of a query cause no other events.
* `Session`: the ways in which a run can go, each with its events and its result.
* `Session.confined`: what all of them have in common.
* `run_closes_session`: every run goes in one of these ways.
-/

namespace SkyDiscovery

/-- The event belongs to the rows of a query. -/
def Event.isWork : Event → Bool
  | read | located _ | computed _ _ => true
  | connected _ | opened | executed _ | closed => false

/-! ## Work on the rows -/

theorem Editor.isWork_of_mem_events_edit {e : Editor} {d : FieldDirectory} {r : Record}
    {id : String} {event : Event} (h : event ∈ (e.edit d r id).events) : event.isWork = true := by
  unfold edit at h
  rcases hl : e.service.locate id with f | _ | path
  · obtain rfl : event = .located id := by simpa [hl, Logged.log] using h
    rfl
  · obtain rfl : event = .located id := by simpa [hl, Logged.log] using h
    rfl
  · obtain rfl | rfl : event = .located id ∨ event = .computed path (e.request.forDataset id) := by
      simpa [hl, Logged.log] using h
    · rfl
    · rfl

namespace Expander

theorem isWork_of_mem_events_complete {d : FieldDirectory} {editor : Option Editor} {v : Variant}
    {r : Record} {publisherId : Option String} {event : Event}
    (h : event ∈ (complete d editor v r publisherId).events) : event.isWork = true := by
  by_cases hv : v.product = .virtual
  · rcases editor with _ | e
    · simp [complete, hv] at h
    · rcases publisherId with _ | id
      · simp [complete, hv] at h
      · rw [events_complete d e hv] at h
        exact Editor.isWork_of_mem_events_edit h
  · simp [complete, hv] at h

theorem isWork_of_mem_events_recordOf {z : Synthesizer} {editor : Option Editor}
    {association : Option String} {row : Row} {v : Variant} {event : Event}
    (h : event ∈ (recordOf z editor association row v).events) : event.isWork = true := by
  unfold recordOf at h
  split at h
  · cases h
  · exact isWork_of_mem_events_complete h

end Expander

namespace Engine

/-- The rows of a query are read, and records are made of them with the locator and the cutout
task. -/
theorem isWork_of_mem_events_process {g : Engine} {q : CatalogQuery} {s : ParameterSet}
    {d : FieldDirectory} {items : List CursorItem} {event : Event}
    (h : event ∈ (g.process q s d items).events) : event.isWork = true := by
  rcases mem_events_process h with rfl | ⟨row, association, v, -, hrecord⟩
  · rfl
  · exact Expander.isWork_of_mem_events_recordOf hrecord

/-! ## Ways in which a run can go -/

/-- The ways in which a run can go, each with its events and its result. -/
inductive Session (g : Engine) (s : ParameterSet) (catalog : Catalog) :
    Logged (Except Failure Response) → Prop
  | uncompiled {f : Failure} (compile : g.compile s = .error f) :
      Session g s catalog ⟨[], .error f⟩
  | fieldless {q : CatalogQuery} {f : Failure} (compile : g.compile s = .ok q)
      (directory : g.directory s = .error f) : Session g s catalog ⟨[], .error f⟩
  | unopened {q : CatalogQuery} {d : FieldDirectory} {f : Failure} (compile : g.compile s = .ok q)
      (directory : g.directory s = .ok d) (openSession : catalog.openSession = .error f) :
      Session g s catalog ⟨[.opened], .error f⟩
  | refused {q : CatalogQuery} {d : FieldDirectory} {f : Failure} (compile : g.compile s = .ok q)
      (directory : g.directory s = .ok d) (openSession : catalog.openSession = .ok ())
      (execute : catalog.execute q.text = .error f) :
      Session g s catalog ⟨[.opened, .executed q.text, .closed], .error f⟩
  | worked {q : CatalogQuery} {d : FieldDirectory} {rows : List CursorItem} {work : List Event}
      {result : Except Failure Response} (compile : g.compile s = .ok q)
      (directory : g.directory s = .ok d) (openSession : catalog.openSession = .ok ())
      (execute : catalog.execute q.text = .ok rows)
      (process : g.process q s d rows = ⟨work, result⟩) (isWork : ∀ e ∈ work, e.isWork = true) :
      Session g s catalog ⟨.opened :: .executed q.text :: (work ++ [.closed]), result⟩

/-- No session outlives its run, and the rows are worked on inside a session only. -/
structure Confined (catalog : Catalog) (events : List Event) : Prop where
  /-- A session that was opened is closed once, and nothing comes after. -/
  closed : .opened ∈ events → catalog.openSession = .ok () →
    ∃ during, events = during ++ [.closed] ∧ .closed ∉ during
  /-- Only what was opened is closed. -/
  opened : .closed ∈ events → .opened ∈ events ∧ catalog.openSession = .ok ()
  work : ∀ before e after, events = before ++ e :: after → e.isWork = true →
    catalog.openSession = .ok () ∧ .opened ∈ before ∧ .closed ∉ before ∧ .closed ∈ after

/-- Events without a closed session and without work. -/
theorem Confined.of_unopened {catalog : Catalog} {events : List Event}
    (hopened : .opened ∈ events → catalog.openSession ≠ .ok ()) (hclosed : .closed ∉ events)
    (hwork : ∀ e ∈ events, e.isWork = false) : Confined catalog events where
  closed hmem hopen := absurd hopen (hopened hmem)
  opened hmem := absurd hmem hclosed
  work before e after hevents he := by
    have hmem : e ∈ events := by simp [hevents]
    exact absurd he (by simp [hwork e hmem])

/-- Work between the execution of a query and the end of its session. -/
theorem Confined.of_work {catalog : Catalog} {text : String} {work : List Event}
    (hopen : catalog.openSession = .ok ()) (hwork : ∀ e ∈ work, e.isWork = true) :
    Confined catalog (.opened :: .executed text :: (work ++ [.closed])) := by
  have hduring : Event.closed ∉ Event.opened :: .executed text :: work := by
    intro hmem
    have : Event.closed ∈ work := by simpa using hmem
    exact absurd (hwork _ this) Bool.false_ne_true
  constructor
  · intro _ _
    exact ⟨.opened :: .executed text :: work, rfl, hduring⟩
  · intro _
    exact ⟨List.mem_cons_self, hopen⟩
  · intro before e after hevents he
    have hsplit : (Event.opened :: .executed text :: work) ++ [.closed] = before ++ e :: after :=
      hevents
    rcases before with _ | ⟨first, before⟩
    · obtain ⟨rfl, -⟩ := List.cons.inj hsplit
      cases he
    · obtain rfl : Event.opened = first := (List.cons.inj hsplit).1
      rcases after.eq_nil_or_concat with rfl | ⟨init, last, rfl⟩
      · obtain ⟨-, hlast⟩ := List.append_inj' hsplit rfl
        obtain rfl : Event.closed = e := List.singleton_inj.1 hlast
        cases he
      · rw [List.concat_eq_append, ← List.cons_append, ← List.append_assoc] at hsplit
        obtain ⟨hinit, hlast⟩ := List.append_inj' hsplit rfl
        obtain rfl : Event.closed = last := List.singleton_inj.1 hlast
        refine ⟨hopen, List.mem_cons_self, fun hmem => hduring ?_, by simp⟩
        rw [hinit]
        exact List.mem_append_left _ hmem

theorem Session.confined {g : Engine} {s : ParameterSet} {catalog : Catalog}
    {l : Logged (Except Failure Response)} (h : Session g s catalog l) :
    Confined catalog l.events := by
  cases h with
  | uncompiled => exact .of_unopened (by simp) (by simp) (by simp)
  | fieldless => exact .of_unopened (by simp) (by simp) (by simp)
  | unopened _ _ hopen => exact .of_unopened (by simp [hopen]) (by simp) (by simp [Event.isWork])
  | @refused q _ _ _ _ hopen _ =>
    have hidle : Confined catalog (.opened :: .executed q.text :: ([] ++ [.closed])) :=
      .of_work hopen (List.forall_mem_nil _)
    exact hidle
  | worked _ _ hopen _ _ hwork => exact .of_work hopen hwork

/-! ## Runs -/

theorem session_execute {g : Engine} {s : ParameterSet} {q : CatalogQuery} {d : FieldDirectory}
    (hq : g.compile s = .ok q) (hd : g.directory s = .ok d) (catalog : Catalog) :
    Session g s catalog (g.execute q s d catalog) := by
  unfold execute
  rcases hopen : catalog.openSession with f | _
  · exact .unopened hq hd hopen
  · rcases hrows : catalog.execute q.text with f | rows
    · exact .refused hq hd hopen hrows
    · exact .worked hq hd hopen hrows rfl fun e he => isWork_of_mem_events_process he

theorem session_run (g : Engine) (s : ParameterSet) (catalog : Catalog) :
    Session g s catalog (g.run s catalog) := by
  unfold run
  rcases hq : g.compile s with f | q
  · exact .uncompiled hq
  · rcases hd : g.directory s with f | d
    · exact .fieldless hq hd
    · exact session_execute hq hd catalog

/-- A run goes in one of these ways whatever its collaborators do: a session is opened for a
compiled query only, everything is done inside it, and it is closed exactly once. -/
theorem run_closes_session (g : Engine) (s : ParameterSet) (catalog : Catalog) :
    Session g s catalog (g.run s catalog) ∧ Confined catalog (g.run s catalog).events :=
  ⟨session_run g s catalog, (session_run g s catalog).confined⟩

end Engine

end SkyDiscovery
