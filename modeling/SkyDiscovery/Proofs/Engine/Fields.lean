import SkyDiscovery.Proofs.Engine.Origin
import SkyDiscovery.Proofs.Field.Directory

/-!
# The fields of a record

A record is synthesized with a value for each declared field.  What happens to it afterwards sets
fields that are declared or that it has, so it never gets another field and never loses one.

* `keyed_of_synthesize`: a synthesized record has exactly the declared fields.
* `keptBy_keyed`: setting declared fields keeps it so.
* `process_records_keyed`: every record of a response has exactly the fields of its directory.
-/

namespace SkyDiscovery

/-- The record has a value for each field of a directory and no other. -/
def Record.Keyed (d : FieldDirectory) (r : Record) : Prop :=
  ∀ id, id ∈ r.values.keys ↔ id ∈ d.ids

theorem keptBy_keyed {d : FieldDirectory} (hd : d.Indexed) : KeptBy d (Record.Keyed d) where
  set r id x hr hallows := by
    have hdeclared : id ∈ d.ids := by
      rcases hallows with hindexed | hmem | hpresent
      · exact (hd.contains_iff id).1 hindexed
      · exact hmem
      · exact (hr id).1 ((r.values.mem_keys_iff id).2 (Option.isSome_iff_exists.1 hpresent))
    intro k
    rw [Record.set, Dictionary.mem_keys_insert, hr k, or_iff_right_of_imp]
    rintro rfl
    exact hdeclared
  virtual _ hr := hr

namespace Synthesizer

variable {z : Synthesizer}

/-- The entries of a record are the fields with their values. -/
theorem entries_of_mapM {value : String → Except Failure Json} {ids : List String}
    {entries : List (String × Json)}
    (h : (ids.mapM fun id => do return (id, ← value id)) = .ok entries) :
    entries.map Prod.fst = ids ∧ ∀ e ∈ entries, value e.1 = .ok e.2 := by
  induction ids generalizing entries with
  | nil =>
    cases h
    exact ⟨rfl, by simp⟩
  | cons id ids ih =>
    rw [List.mapM_cons] at h
    obtain ⟨entry, hentry, h⟩ := exists_of_bind h
    obtain ⟨rest, hrest, h⟩ := exists_of_bind h
    obtain ⟨x, hx, hentry⟩ := exists_of_bind hentry
    cases hentry
    cases h
    obtain ⟨hids, hvalues⟩ := ih hrest
    exact ⟨by rw [List.map_cons, hids], List.forall_mem_cons.2 ⟨hx, hvalues⟩⟩

theorem keyed_of_fill {v : Variant} {value : String → Except Failure Json} {r : Record}
    (h : z.fill v value = .ok r) : r.Keyed z.directory := by
  obtain ⟨entries, hentries, h⟩ := exists_of_bind h
  cases h
  intro id
  rw [Dictionary.mem_keys_ofList, (entries_of_mapM hentries).1]

/-- A field that a record has holds the value it was filled with. -/
theorem value_of_fill {v : Variant} {value : String → Except Failure Json} {r : Record}
    (h : z.fill v value = .ok r) {id : String} {x : Json} (hx : r.get? id = some x) :
    value id = .ok x := by
  obtain ⟨entries, hentries, h⟩ := exists_of_bind h
  cases h
  exact (entries_of_mapM hentries).2 _ (Dictionary.mem_of_get?_ofList hx)

theorem keyed_of_synthesize {row : Row} {v : Variant} {made : Synthesized}
    (h : z.synthesize row v = .ok made) : made.record.Keyed z.directory := by
  obtain ⟨value, hfill⟩ := exists_fill_of_synthesize h
  exact keyed_of_fill hfill

end Synthesizer

namespace Engine

theorem Pipeline.keyed_of_record? {l : Pipeline} (hd : l.synthesizer.directory.Indexed) {v : Visit}
    {r : Record} (h : l.record? v = some r) : r.Keyed l.synthesizer.directory :=
  record?_kept (keptBy_keyed hd) (fun _ hmade => Synthesizer.keyed_of_synthesize hmade) h

/-- The records of a response have exactly the fields of its directory, whatever fields were added
to those of a table. -/
theorem process_records_keyed (g : Engine) (q : CatalogQuery) (s : ParameterSet) (p : Protocol)
    (t : TableMapping) (verbosity : Option Nat) (more : List Field) (items : List CursorItem)
    (r : Response)
    (hrun : (g.process q s ((FieldDirectory.build p t verbosity).insertAll more) items).value =
      .ok r) :
    ∀ a ∈ r.records, a.values.keys.Perm r.directory.ids := by
  have hd := (FieldDirectory.indexed_build p t verbosity).insertAll more
  obtain ⟨vs, ws, -, -, hrecords, hdirectory⟩ := exists_visits_of_process hrun
  intro a ha
  obtain ⟨v, -, hv⟩ := List.mem_filterMap.1 (hrecords ▸ ha)
  rw [hdirectory]
  exact (List.perm_ext_iff_of_nodup a.values.nodup_keys hd.nodup).2 (Pipeline.keyed_of_record? hd hv)

/-- The table leaves out all fields but the access URL and declares the creation type anew; the
cutout comes with keywords of both, of the association and of no field. -/
theorem process_records_keyed_of_cutout :
    let t : TableMapping :=
      { resolve := fun _ => none, omits := fun id => id != "access_url",
        customFields := [{ id := "obs_creation_type" }] }
    let g := ((Engine.make .image Sample.imageContext).withTable t).withCutouts
      ⟨fun id => .ok (some id), fun _ _ => .ok (some (.ofList
        [("MDFILE", "cut.fits"), ("access_url", "elsewhere"), ("assoc_id", "none"),
          ("obs_creation_type", "mosaic")]))⟩
    let q : CatalogQuery := ⟨"images", [], 9, none, none, none, none⟩
    let s : ParameterSet := ⟨.ofList [("mode", ⟨"MODE", .core, "cutout", .text "cutout"⟩)]⟩
    let items : List CursorItem :=
      [.ok (.ofList [("id", .text "7"), ("access_format", .text "image/fits")])]
    ∃ r, (g.process q s ((FieldDirectory.build .image t none).insertAll []) items).value = .ok r ∧
      r.records.map (fun a => a.values.keys) =
        [["access_url", "obs_creation_type"], ["access_url", "obs_creation_type"]] ∧
      ∀ a ∈ r.records, a.values.keys.Perm r.directory.ids := by
  intro t g q s items
  have hrun : ((g.process q s ((FieldDirectory.build .image t none).insertAll []) items).value
      |>.toOption.any fun r => r.records.map (fun a => a.values.keys) =
        [["access_url", "obs_creation_type"], ["access_url", "obs_creation_type"]]) = true := by
    decide +kernel
  obtain ⟨r, hr, hkeys⟩ := exists_ok_of_any hrun
  exact ⟨r, hr, of_decide_eq_true hkeys, process_records_keyed g q s .image t none [] items r hr⟩

end Engine

end SkyDiscovery
