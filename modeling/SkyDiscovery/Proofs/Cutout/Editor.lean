import SkyDiscovery.Proofs.Engine.Product
import SkyDiscovery.Proofs.Field.Directory

/-!
# What an edit changes

Editing a virtual record either leaves it as it is or describes the cutout in it.  Several writes
may then fall on one field: that of the access URL, that of the creation type and those of the
keywords, which name a field by its identifier or its data-model name.  The last keyword that names
a field wins, and nothing but fields and the access URL is written.

* `get?_field_foldl`, `get?_other_foldl`: what the keywords come to.
* `edit_cases`: the two ends of an edit.
* `edit_describes_or_keeps`: when a record is edited, and all that it holds afterwards.
-/

namespace SkyDiscovery

theorem Record.get?_set (r : Record) (field : String) (x : Json) (id : String) :
    (r.set field x).get? id = if field = id then some x else r.get? id :=
  Dictionary.get?_insert _ _ _ _

namespace Editor

open FieldDirectory (namedAmong?)

variable {d : FieldDirectory} {r : Record}

/-! ## Keywords -/

/-- What a keyword gives a field, if it names it. -/
def given? (d : FieldDirectory) (f : Field) (keyword : String × String) : Option Json :=
  if namedAmong? d.fields keyword.1 = some f then some (f.coerce keyword.2) else none

/-- What the last keyword gives a field, among those that name it. -/
def lastGiven? (d : FieldDirectory) (f : Field) (keywords : List (String × String)) :
    Option Json :=
  (keywords.filterMap (given? d f)).getLast?

theorem lastGiven?_cons (d : FieldDirectory) (f : Field) (k : String × String)
    (ks : List (String × String)) :
    lastGiven? d f (k :: ks) = (lastGiven? d f ks).or (given? d f k) := by
  rw [lastGiven?, List.filterMap_cons]
  cases hk : given? d f k with
  | none => rw [Option.or_none, lastGiven?]
  | some x =>
    dsimp only
    rw [List.getLast?_cons, lastGiven?]
    cases (ks.filterMap (given? d f)).getLast? <;> rfl

theorem get?_field_applyKeyword (hplaced : d.Placed) (hindexed : d.Indexed) {f : Field}
    (hf : f ∈ d.fields) (r : Record) (k : String × String) :
    (applyKeyword d r k).get? f.id = (given? d f k).or (r.get? f.id) := by
  rw [applyKeyword, given?, hplaced.named?_eq]
  cases hnamed : namedAmong? d.fields k.1 with
  | none => rfl
  | some g =>
    have hg : g ∈ d.fields := FieldDirectory.mem_of_namedAmong? hnamed
    dsimp only
    rw [Record.get?_set]
    by_cases hid : g.id = f.id
    · obtain rfl := hindexed.eq_of_id_eq hg hf hid
      rw [if_pos rfl, if_pos rfl, Option.some_or]
    · have hne : some g ≠ some f := fun h => hid (congrArg Field.id (Option.some.inj h))
      rw [if_neg hid, if_neg hne, Option.none_or]

theorem get?_other_applyKeyword (hplaced : d.Placed) {id : String} (hid : id ∉ d.ids) (r : Record)
    (k : String × String) : (applyKeyword d r k).get? id = r.get? id := by
  rw [applyKeyword, hplaced.named?_eq]
  cases hnamed : namedAmong? d.fields k.1 with
  | none => rfl
  | some g =>
    have hne : g.id ≠ id := by
      rintro rfl
      exact hid (List.mem_map_of_mem (FieldDirectory.mem_of_namedAmong? hnamed))
    dsimp only
    rw [Record.get?_set, if_neg hne]

/-- After all keywords a field has what the last one that names it gives it. -/
theorem get?_field_foldl (hplaced : d.Placed) (hindexed : d.Indexed) {f : Field}
    (hf : f ∈ d.fields) (ks : List (String × String)) (r : Record) :
    (ks.foldl (applyKeyword d) r).get? f.id = (lastGiven? d f ks).or (r.get? f.id) := by
  induction ks generalizing r with
  | nil => rfl
  | cons k ks ih =>
    rw [List.foldl_cons, ih, get?_field_applyKeyword hplaced hindexed hf, lastGiven?_cons,
      Option.or_assoc]

theorem get?_other_foldl (hplaced : d.Placed) {id : String} (hid : id ∉ d.ids)
    (ks : List (String × String)) (r : Record) :
    (ks.foldl (applyKeyword d) r).get? id = r.get? id := by
  induction ks generalizing r with
  | nil => rfl
  | cons k ks ih => rw [List.foldl_cons, ih, get?_other_applyKeyword hplaced hid]

/-- Keywords change values and nothing else of a record. -/
theorem exists_foldl_applyKeyword (d : FieldDirectory) (ks : List (String × String)) (r : Record) :
    ∃ values, ks.foldl (applyKeyword d) r = { r with values := values } := by
  induction ks generalizing r with
  | nil => exact ⟨r.values, rfl⟩
  | cons k ks ih =>
    obtain ⟨values, hvalues⟩ := ih (applyKeyword d r k)
    rw [List.foldl_cons, hvalues]
    unfold applyKeyword
    split
    · exact ⟨values, rfl⟩
    · exact ⟨values, rfl⟩

/-! ## Descriptions -/

/-- The value under an identifier, when the access URL of a record leads to a metadata file. -/
def redirectedValue? (r : Record) (file id : String) : Option Json :=
  match r.text? "access_url" with
  | none => r.get? id
  | some url => if id = "access_url" then (replaceDataset? url file).map .text else r.get? id

theorem get?_redirect? {file : String} {turned : Record} (h : redirect? r file = some turned)
    (id : String) : turned.get? id = redirectedValue? r file id := by
  rw [redirect?] at h
  rw [redirectedValue?]
  cases hurl : r.text? "access_url" with
  | none =>
    rw [hurl] at h
    cases h
    rfl
  | some url =>
    rw [hurl] at h
    obtain ⟨u, hu, rfl⟩ := Option.map_eq_some_iff.1 h
    dsimp only
    rw [Record.get?_set, hu]
    by_cases hid : id = "access_url"
    · rw [if_pos hid.symm, if_pos hid, Option.map_some]
    · rw [if_neg (Ne.symm hid), if_neg hid]

theorem redirect?_frame {file : String} {turned : Record} (h : redirect? r file = some turned) :
    turned.format = r.format ∧ turned.association = r.association := by
  unfold redirect? at h
  split at h
  · cases h
    exact ⟨rfl, rfl⟩
  · obtain ⟨u, -, rfl⟩ := Option.map_eq_some_iff.1 h
    exact ⟨rfl, rfl⟩

/-- The record to which the keywords are applied. -/
def started (d : FieldDirectory) (r : Record) : Record :=
  if d.contains "obs_creation_type" then
    { r with product := .virtual }.set "obs_creation_type" (.text Product.virtual.creationType)
  else { r with product := .virtual }

theorem describe_eq (d : FieldDirectory) (keywords : Keywords) (r : Record) :
    describe d keywords r = keywords.entries.foldl (applyKeyword d) (started d r) := rfl

theorem get?_started (d : FieldDirectory) (r : Record) (id : String) :
    (started d r).get? id =
      if id = "obs_creation_type" ∧ d.contains id = true then some (.text "cutout")
      else r.get? id := by
  unfold started
  by_cases hcontains : d.contains "obs_creation_type" = true
  · rw [if_pos hcontains, Record.get?_set]
    by_cases hid : id = "obs_creation_type"
    · subst hid
      rw [if_pos rfl, if_pos ⟨rfl, hcontains⟩]
      rfl
    · rw [if_neg (Ne.symm hid), if_neg fun h => hid h.1]
      rfl
  · have hnot : ¬ (id = "obs_creation_type" ∧ d.contains id = true) := by
      rintro ⟨rfl, h⟩
      exact hcontains h
    rw [if_neg hcontains, if_neg hnot]
    rfl

theorem started_frame (d : FieldDirectory) (r : Record) :
    (started d r).format = r.format ∧ (started d r).association = r.association ∧
      (started d r).product = .virtual := by
  unfold started
  split
  · exact ⟨rfl, rfl, rfl⟩
  · exact ⟨rfl, rfl, rfl⟩

/-- The edited record describes a cutout.  Its product aside, only its values have changed.  A field
has what the last keyword gives it that names it; failing that, the creation type is that of a
cutout, the access URL leads to the metadata file, and any other value is as before. -/
structure Describes (d : FieldDirectory) (keywords : Keywords) (file : String)
    (r edited : Record) : Prop where
  format : edited.format = r.format
  association : edited.association = r.association
  product : edited.product = .virtual
  field : ∀ f ∈ d.fields, edited.get? f.id =
    (lastGiven? d f keywords.entries).or
      (if f.id = "obs_creation_type" then some (.text "cutout") else redirectedValue? r file f.id)
  other : ∀ id, id ∉ d.ids → edited.get? id = redirectedValue? r file id

theorem describes_describe (hplaced : d.Placed) (hindexed : d.Indexed) (keywords : Keywords)
    {file : String} {turned : Record} (h : redirect? r file = some turned) :
    Describes d keywords file r (describe d keywords turned) := by
  obtain ⟨values, hvalues⟩ := exists_foldl_applyKeyword d keywords.entries (started d turned)
  obtain ⟨hformat, hassociation, hproduct⟩ := started_frame d turned
  obtain ⟨hformat', hassociation'⟩ := redirect?_frame h
  constructor
  case format => rw [describe_eq, hvalues, hformat, hformat']
  case association => rw [describe_eq, hvalues, hassociation, hassociation']
  case product => rw [describe_eq, hvalues, hproduct]
  case field =>
    intro f hf
    have hdeclared : d.contains f.id = true :=
      (hindexed.contains_iff f.id).2 (List.mem_map_of_mem hf)
    rw [describe_eq, get?_field_foldl hplaced hindexed hf, get?_started, get?_redirect? h]
    simp only [hdeclared, and_true]
  case other =>
    intro id hid
    have hundeclared : ¬ d.contains id = true := mt (hindexed.contains_iff id).1 hid
    rw [describe_eq, get?_other_foldl hplaced hid, get?_started, get?_redirect? h,
      if_neg fun h => hundeclared h.2]

/-! ## Edits -/

/-- There is all that the description of a cutout needs: the keywords of a file, among them the
metadata file, and an access URL that can lead to it. -/
structure Finds (e : Editor) (r : Record) (publisherId : String) (keywords : Keywords)
    (file : String) : Prop where
  computed : ∃ path, e.service.locate publisherId = .ok (some path) ∧
    e.service.compute path (e.request.forDataset publisherId) = .ok (some keywords)
  metadata : keywords.get? Keywords.metadataFile = some file
  redirects : ∀ url, r.text? "access_url" = some url → (replaceDataset? url file).isSome

theorem isSome_redirect?_iff (r : Record) (file : String) :
    (redirect? r file).isSome ↔
      ∀ url, r.text? "access_url" = some url → (replaceDataset? url file).isSome := by
  unfold redirect?
  split
  · next hnone => simp [hnone]
  · next url hurl => simp [hurl]

/-- The keywords and the metadata file that are found are those of the task. -/
theorem Finds.unique {e : Editor} {publisherId file file' : String} {keywords keywords' : Keywords}
    (h : e.Finds r publisherId keywords file) (h' : e.Finds r publisherId keywords' file') :
    keywords = keywords' ∧ file = file' := by
  obtain ⟨path, hpath, hcompute⟩ := h.computed
  obtain ⟨path', hpath', hcompute'⟩ := h'.computed
  cases hpath.symm.trans hpath'
  cases hcompute.symm.trans hcompute'
  cases h.metadata.symm.trans h'.metadata
  exact ⟨rfl, rfl⟩

theorem conclude_cases (d : FieldDirectory) (r : Record) (publisherId : String)
    (answer : Except Failure (Option Keywords)) :
    (∃ keywords file turned, answer = .ok (some keywords) ∧
      keywords.get? Keywords.metadataFile = some file ∧ redirect? r file = some turned ∧
      conclude d r publisherId answer = (describe d keywords turned, .applied)) ∨
    (∀ keywords file, answer = .ok (some keywords) →
      keywords.get? Keywords.metadataFile = some file → redirect? r file = none) ∧
      ∃ reason, conclude d r publisherId answer = (r, .discarded reason) := by
  unfold conclude
  split
  · exact .inr ⟨nofun, _, rfl⟩
  · exact .inr ⟨nofun, _, rfl⟩
  · next keywords =>
    split
    · next hnone =>
      refine .inr ⟨fun keywords' file hkeywords hfile => ?_, _, rfl⟩
      cases hkeywords
      cases hnone.symm.trans hfile
    · next file hfile =>
      split
      · next hredirect =>
        refine .inr ⟨fun keywords' file' hkeywords hfile' => ?_, _, rfl⟩
        cases hkeywords
        cases hfile.symm.trans hfile'
        exact hredirect
      · next turned hredirect => exact .inl ⟨keywords, file, turned, rfl, hfile, hredirect, rfl⟩

/-- An edit finds everything and describes the cutout, or leaves the record as it is. -/
theorem edit_cases (e : Editor) (d : FieldDirectory) (r : Record) (publisherId : String) :
    (∃ keywords file turned, e.Finds r publisherId keywords file ∧
      redirect? r file = some turned ∧
      (e.edit d r publisherId).value = (describe d keywords turned, .ok .applied)) ∨
    (∀ keywords file, ¬ e.Finds r publisherId keywords file) ∧
      ∃ outcome, outcome ≠ .ok .applied ∧ (e.edit d r publisherId).value = (r, outcome) := by
  unfold edit
  rcases hlocate : e.service.locate publisherId with f | _ | path
  · refine .inr ⟨fun keywords file h => ?_, .error f, nofun, rfl⟩
    obtain ⟨path, hpath, -⟩ := h.computed
    cases hlocate.symm.trans hpath
  · refine .inr ⟨fun keywords file h => ?_, .ok (.discarded _), nofun, rfl⟩
    obtain ⟨path, hpath, -⟩ := h.computed
    cases hlocate.symm.trans hpath
  · simp only [Logged.value_bind, Logged.value_pure]
    rcases conclude_cases d r publisherId
        (e.service.compute path (e.request.forDataset publisherId)) with
      ⟨keywords, file, turned, hanswer, hfile, hredirect, heq⟩ | ⟨hnone, reason, heq⟩
    · refine .inl ⟨keywords, file, turned, ⟨⟨path, hlocate, hanswer⟩, hfile, ?_⟩, hredirect, ?_⟩
      · rw [← isSome_redirect?_iff, hredirect, Option.isSome_some]
      · rw [heq]
    · refine .inr ⟨fun keywords file h => ?_, .ok (.discarded reason), nofun, ?_⟩
      · obtain ⟨path', hpath, hanswer⟩ := h.computed
        cases hlocate.symm.trans hpath
        have hsome := (isSome_redirect?_iff r file).2 h.redirects
        rw [hnone keywords file hanswer h.metadata] at hsome
        cases hsome
      · rw [heq]

/-- Exactly if everything is found, an edit describes the cutout; in any other case, whether it
fails or discards the record, it leaves the record as it is. -/
theorem edit_describes_or_keeps (e : Editor) (fs : List Field) (r : Record)
    (publisherId : String) :
    let d := FieldDirectory.empty.insertAll fs
    let edited := (e.edit d r publisherId).value
    (edited.2 = .ok .applied ↔ ∃ keywords file, e.Finds r publisherId keywords file) ∧
      (edited.2 ≠ .ok .applied → edited.1 = r) ∧
      ∀ keywords file, e.Finds r publisherId keywords file →
        Describes d keywords file r edited.1 := by
  intro d edited
  have hplaced : d.Placed := FieldDirectory.placed_empty.insertAll fs
  have hindexed : d.Indexed := FieldDirectory.indexed_empty.insertAll fs
  rcases e.edit_cases d r publisherId with
    ⟨keywords, file, turned, hfinds, hredirect, heq⟩ | ⟨hnone, outcome, hne, heq⟩
  · rw [show edited = _ from heq]
    refine ⟨iff_of_true rfl ⟨keywords, file, hfinds⟩, fun h => absurd rfl h, ?_⟩
    intro keywords' file' hfinds'
    obtain ⟨rfl, rfl⟩ := hfinds.unique hfinds'
    exact describes_describe hplaced hindexed keywords hredirect
  · rw [show edited = _ from heq]
    refine ⟨iff_of_false hne ?_, fun _ => rfl, fun keywords file h => absurd h (hnone _ _)⟩
    rintro ⟨keywords, file, hfinds⟩
    exact hnone keywords file hfinds

/-- Two keywords name one field, by its data-model name and by its identifier; a third names
none. -/
theorem edit_describes_or_keeps_twice_named :
    let url : Field := ⟨"access_url", "", "char", none, none, none, "m"⟩
    let title : Field := ⟨"title", "Obs.Title", "char", none, none, none, "m"⟩
    let e : Editor := ⟨⟨fun _ => .ok (some "7.fits"), fun _ _ => .ok (some (.ofList
      [("MDFILE", "cut"), ("title", " third "), ("Obs.Title", "second"), ("note", "new")]))⟩, {}⟩
    let r : Record := ⟨.ofList [("access_url", .text "http://dal?PubDID=a%23b&x"),
      ("note", .text "old")], some "assoc.1", "image/fits", .archival⟩
    let edited := (e.edit (FieldDirectory.empty.insertAll [url, title]) r "7").value
    edited.2 = .ok .applied ∧ edited.1.product = .virtual ∧
      edited.1.text? "title" = some "third" ∧ edited.1.text? "note" = some "old" ∧
      edited.1.text? "access_url" = some "http://dal?PubDID=a%23cut&x" := by
  intro url title e r edited
  have hurl : r.text? "access_url" = some "http://dal?PubDID=a%23b&x" := by decide +kernel
  have hfinds : e.Finds r "7" (.ofList [("MDFILE", "cut"), ("title", " third "),
      ("Obs.Title", "second"), ("note", "new")]) "cut" := by
    refine ⟨⟨"7.fits", rfl, rfl⟩, by decide +kernel, fun url hurl' => ?_⟩
    obtain rfl := Option.some.inj (hurl.symm.trans hurl')
    decide +kernel
  obtain ⟨happlied, -, hdescribes⟩ := edit_describes_or_keeps e [url, title] r "7"
  obtain ⟨-, -, hproduct, hfield, hother⟩ := hdescribes _ _ hfinds
  refine ⟨happlied.2 ⟨_, _, hfinds⟩, hproduct, ?_, ?_, ?_⟩
  · rw [Record.text?, hfield title (by decide +kernel)]
    decide +kernel
  · rw [Record.text?, hother "note" (by decide +kernel)]
    decide +kernel
  · rw [Record.text?, hfield url (by decide +kernel)]
    decide +kernel

end Editor

end SkyDiscovery
