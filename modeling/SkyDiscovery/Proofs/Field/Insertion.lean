import SkyDiscovery.Proofs.Field.Directory

/-!
# Inserting fields

A field is inserted unless its identifier is taken.  After any run of inserts the directory has the
fields that were inserted, in their order, and its two indexes agree with them.

* `fields_insertAll`: the fields after a run.
* `mem_accepted_iff`: which fields a run inserts.
* `consistent_of_inserts`: lookups, indexes and refusals after a run.
-/

namespace SkyDiscovery.FieldDirectory

variable {d : FieldDirectory}

/-- Among several fields there is a first one with the identifier of any of them. -/
theorem exists_find?_of_mem {fs : List Field} {f : Field} (hf : f ∈ fs) :
    ∃ g, fs.find? (·.id == f.id) = some g ∧ g ∈ fs ∧ g.id = f.id := by
  obtain ⟨g, hg⟩ : ∃ g, fs.find? (·.id == f.id) = some g :=
    Option.isSome_iff_exists.1 (List.find?_isSome.2 ⟨f, hf, beq_self_eq_true f.id⟩)
  exact ⟨g, hg, List.mem_of_find?_eq_some hg, by simpa using List.find?_some hg⟩

/-! ## One insert -/

theorem ids_append (d : FieldDirectory) (f : Field) : (d.append f).ids = d.ids ++ [f.id] :=
  List.map_append

namespace Indexed

theorem insert_of_mem (h : d.Indexed) {f : Field} (hmem : f.id ∈ d.ids) :
    d.insert f = (d, false) :=
  if_pos ((h.contains_iff f.id).2 hmem)

theorem insert_of_not_mem (h : d.Indexed) {f : Field} (hnew : f.id ∉ d.ids) :
    d.insert f = (d.append f, true) :=
  if_neg fun hcontains => hnew ((h.contains_iff f.id).1 hcontains)

theorem append_of_not_mem (h : d.Indexed) {f : Field} (hnew : f.id ∉ d.ids) :
    (d.append f).Indexed := by
  have hinsert := h.insert f
  rwa [h.insert_of_not_mem hnew] at hinsert

theorem insert_eq_false_iff (h : d.Indexed) (f : Field) :
    (d.insert f).2 = false ↔ f.id ∈ d.ids := by
  by_cases hmem : f.id ∈ d.ids
  · simp [h.insert_of_mem hmem, hmem]
  · simp [h.insert_of_not_mem hmem, hmem]

end Indexed

/-! ## Runs of inserts -/

/-- The fields that a run inserts, in their order. -/
def accepted (d : FieldDirectory) : List Field → List Field
  | [] => []
  | f :: fs =>
    if (d.insert f).2 then f :: accepted (d.insert f).1 fs else accepted (d.insert f).1 fs

theorem accepted_cons_of_mem (h : d.Indexed) {f : Field} (hmem : f.id ∈ d.ids) (fs : List Field) :
    accepted d (f :: fs) = accepted d fs := by
  rw [accepted, h.insert_of_mem hmem, if_neg Bool.false_ne_true]

theorem accepted_cons_of_not_mem (h : d.Indexed) {f : Field} (hnew : f.id ∉ d.ids)
    (fs : List Field) : accepted d (f :: fs) = f :: accepted (d.append f) fs := by
  rw [accepted, h.insert_of_not_mem hnew, if_pos rfl]

theorem insertAll_append (d : FieldDirectory) (fs gs : List Field) :
    d.insertAll (fs ++ gs) = (d.insertAll fs).insertAll gs :=
  List.foldl_append

/-- The fields stand in the order in which they were inserted. -/
theorem fields_insertAll (d : FieldDirectory) (fs : List Field) :
    (d.insertAll fs).fields = d.fields ++ accepted d fs := by
  induction fs generalizing d with
  | nil => exact (List.append_nil _).symm
  | cons f fs ih =>
    rw [show d.insertAll (f :: fs) = (d.insert f).1.insertAll fs from rfl, ih, accepted]
    unfold FieldDirectory.insert
    split
    · rw [if_neg Bool.false_ne_true]
    · rw [if_pos rfl, append, List.append_assoc, List.singleton_append]

theorem ids_insertAll (d : FieldDirectory) (fs : List Field) :
    (d.insertAll fs).ids = d.ids ++ (accepted d fs).map Field.id := by
  rw [ids, fields_insertAll, List.map_append, ids]

theorem accepted_sublist (d : FieldDirectory) (fs : List Field) : (accepted d fs).Sublist fs := by
  induction fs generalizing d with
  | nil => exact List.Sublist.slnil
  | cons f fs ih =>
    rw [accepted]
    split
    · exact (ih _).cons_cons f
    · exact (ih _).cons f

/-- A run inserts the first field of each identifier that is not taken before. -/
theorem mem_accepted_iff (h : d.Indexed) {fs : List Field} {f : Field} :
    f ∈ accepted d fs ↔ f.id ∉ d.ids ∧ fs.find? (·.id == f.id) = some f := by
  induction fs generalizing d with
  | nil => simp [accepted]
  | cons g fs ih =>
    by_cases htaken : g.id ∈ d.ids
    · -- `g` is refused; a field with a free identifier is not found at its place
      rw [accepted_cons_of_mem h htaken, ih h]
      refine and_congr_right fun hfree => ?_
      have hne : g.id ≠ f.id := fun heq => hfree (heq ▸ htaken)
      rw [List.find?_cons_of_neg (by simpa using hne)]
    · rw [accepted_cons_of_not_mem h htaken, List.mem_cons, ih (h.append_of_not_mem htaken),
        ids_append, List.mem_append, List.mem_singleton]
      by_cases hid : g.id = f.id
      · -- `g` takes the identifier, so it is the one found
        rw [List.find?_cons_of_pos (by simpa using hid), Option.some.injEq]
        constructor
        · rintro (rfl | ⟨hfree, -⟩)
          · exact ⟨htaken, rfl⟩
          · exact absurd (.inr hid.symm) hfree
        · rintro ⟨-, rfl⟩
          exact .inl rfl
      · rw [List.find?_cons_of_neg (by simpa using hid),
          or_iff_right fun heq => hid (congrArg Field.id heq).symm, or_iff_left (Ne.symm hid)]

/-- No field is refused if their identifiers are distinct and free. -/
theorem accepted_eq_self (h : d.Indexed) {fs : List Field} (hnodup : (fs.map Field.id).Nodup)
    (hfree : ∀ f ∈ fs, f.id ∉ d.ids) : accepted d fs = fs := by
  induction fs generalizing d with
  | nil => rfl
  | cons f fs ih =>
    obtain ⟨hfirst, hrest⟩ := List.nodup_cons.1 hnodup
    obtain ⟨hf, hfs⟩ := List.forall_mem_cons.1 hfree
    have hfree' : ∀ g ∈ fs, g.id ∉ (d.append f).ids := by
      intro g hg htaken
      rw [ids_append, List.mem_append, List.mem_singleton] at htaken
      rcases htaken with hold | hid
      · exact hfs g hg hold
      · exact hfirst (List.mem_map.2 ⟨g, hg, hid⟩)
    rw [accepted_cons_of_not_mem h hf, ih (h.append_of_not_mem hf) hrest hfree']

theorem mem_ids_insertAll (h : d.Indexed) (fs : List Field) (id : String) :
    id ∈ (d.insertAll fs).ids ↔ id ∈ d.ids ∨ ∃ f ∈ fs, f.id = id := by
  rw [ids_insertAll, List.mem_append, List.mem_map]
  constructor
  · rintro (hold | ⟨f, hf, rfl⟩)
    · exact .inl hold
    · exact .inr ⟨f, (accepted_sublist d fs).subset hf, rfl⟩
  · rintro (hold | ⟨f, hf, rfl⟩)
    · exact .inl hold
    · by_cases htaken : f.id ∈ d.ids
      · exact .inl htaken
      · obtain ⟨g, hg, -, hid⟩ := exists_find?_of_mem hf
        rw [← hid] at hg htaken ⊢
        exact .inr ⟨g, (mem_accepted_iff h).2 ⟨htaken, hg⟩, rfl⟩

/-! ## The indexes after a run -/

/-- The directory has the fields `inserted` and answers from its indexes what the list says. -/
structure Consistent (d : FieldDirectory) (inserted : List Field) : Prop where
  fields_eq : d.fields = inserted
  nodup : (inserted.map Field.id).Nodup
  get?_eq_some_iff : ∀ id f, d.get? id = some f ↔ f ∈ inserted ∧ f.id = id
  contains_eq : ∀ id, d.contains id = (d.get? id).isSome
  ofUtype?_eq : ∀ utype, d.ofUtype? utype =
    if utype = "" then none else inserted.find? (·.utype == utype)
  insert_eq_false_iff : ∀ f, (d.insert f).2 = false ↔ f.id ∈ inserted.map Field.id
  insert_eq_self : ∀ f, (d.insert f).2 = false → (d.insert f).1 = d
  byId_lt : ∀ id i, d.byId.get? id = some i → i < inserted.length
  byUtype_lt : ∀ utype i, d.byUtype.get? utype = some i → i < inserted.length

theorem get?_eq_some_iff (hi : d.Indexed) (hp : d.Placed) {id : String} {f : Field} :
    d.get? id = some f ↔ f ∈ d.fields ∧ f.id = id := by
  rw [hp.get?_eq]
  constructor
  · exact fun h => ⟨List.mem_of_find?_eq_some h, by simpa using List.find?_some h⟩
  · rintro ⟨hmem, rfl⟩
    obtain ⟨g, hg, hg', hid⟩ := exists_find?_of_mem hmem
    rw [hg, hi.eq_of_id_eq hg' hmem hid]

/-- Indexes that lead to the first places answer what the list says. -/
theorem consistent (hi : d.Indexed) (hp : d.Placed) : d.Consistent d.fields where
  fields_eq := rfl
  nodup := hi.nodup
  get?_eq_some_iff _ _ := get?_eq_some_iff hi hp
  contains_eq id := by
    rw [Bool.eq_iff_iff, hi.contains_iff, ids, List.mem_map, Option.isSome_iff_exists]
    exact exists_congr fun f => (get?_eq_some_iff hi hp).symm
  ofUtype?_eq := hp.ofUtype?_eq
  insert_eq_false_iff := hi.insert_eq_false_iff
  insert_eq_self f hfalse := by rw [hi.insert_of_mem ((hi.insert_eq_false_iff f).1 hfalse)]
  byId_lt id i h := by
    rw [hp.byId_eq] at h
    exact (List.findIdx?_eq_some_iff_findIdx_eq.1 h).1
  byUtype_lt utype i h := by
    rw [hp.byUtype_eq] at h
    split at h
    · cases h
    · exact (List.findIdx?_eq_some_iff_findIdx_eq.1 h).1

/-- The fields that a table offers for its directory, those that it shows before its own. -/
def offered (p : Protocol) (t : TableMapping) (verbosity : Option Nat) : List Field :=
  shownFields p t verbosity ++ t.customFields.map Field.ofCustom

/-- Inserting any fields one after the other, from nothing or into the directory of a table, leaves
a directory that has the inserted ones and indexes that agree with it. -/
theorem consistent_of_inserts :
    (∀ fs, (empty.insertAll fs).Consistent (accepted empty fs)) ∧
      ∀ p t verbosity fs, ((build p t verbosity).insertAll fs).Consistent
        (accepted empty (offered p t verbosity ++ fs)) := by
  have hempty : ∀ fs, (empty.insertAll fs).Consistent (accepted empty fs) := fun fs => by
    have hfields : (empty.insertAll fs).fields = accepted empty fs := fields_insertAll empty fs
    rw [← hfields]
    exact consistent (indexed_empty.insertAll fs) (placed_empty.insertAll fs)
  refine ⟨hempty, fun p t verbosity fs => ?_⟩
  rw [show build p t verbosity = empty.insertAll (offered p t verbosity) from rfl,
    ← insertAll_append]
  exact hempty _

end SkyDiscovery.FieldDirectory
