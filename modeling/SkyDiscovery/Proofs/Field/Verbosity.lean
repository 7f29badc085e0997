import SkyDiscovery.Proofs.Field.Insertion

/-!
# Levels of verbosity

A table without masks of its own shows at a level the standard fields that share a letter with the
mask of the level, unless it leaves them out, and publishes its own fields at every level.  The mask
of a level has the letters of those below, so a higher level hides nothing.

* `TableConfig.shows_mono`: the standard fields that a table shows at two levels.
* `published_build`: the fields of a directory and their order.
* `ids_build_subset`: the identifiers at two levels.
-/

namespace SkyDiscovery

/-- The order of the levels; no level is the highest. -/
def LevelLE : Option Nat → Option Nat → Prop
  | _, none => True
  | none, some _ => False
  | some low, some high => low ≤ high

/-- The table shows a standard field at a level. -/
def TableConfig.Shows (t : TableConfig) (level : Option Nat) (f : Field) : Prop :=
  f.id ∉ t.omitted ∧ ∀ mask ∈ defaultMask level, ∃ c ∈ f.hint.toList, c ∈ mask.toList

instance (t : TableConfig) (level : Option Nat) : DecidablePred (t.Shows level) := fun _ =>
  inferInstanceAs (Decidable (_ ∧ _))

/-- The mask of a level has the letters of the masks below. -/
theorem exists_mask_of_levelLE {low high : Option Nat} (h : LevelLE low high) {mask : String}
    (hmask : defaultMask high = some mask) :
    ∃ below, defaultMask low = some below ∧ below.toList ⊆ mask.toList := by
  match low, high, h with
  | _, none, _ => cases hmask
  | some 0, some 0, _ => exact ⟨mask, hmask, List.Subset.refl _⟩
  | some 0, some 1, _ =>
    cases hmask
    exact ⟨"m", rfl, by decide⟩
  | some 1, some 1, _ => exact ⟨mask, hmask, List.Subset.refl _⟩
  | some (_ + 2), some 1, h => exact absurd h (by simp [LevelLE])
  | some _, some (_ + 2), _ => cases hmask

theorem TableConfig.shows_mono {t : TableConfig} {low high : Option Nat} (h : LevelLE low high)
    {f : Field} (hlow : t.Shows low f) : t.Shows high f := by
  refine ⟨hlow.1, fun mask hmask => ?_⟩
  obtain ⟨below, hbelow, hsubset⟩ := exists_mask_of_levelLE h hmask
  obtain ⟨c, hhint, hc⟩ := hlow.2 below hbelow
  exact ⟨c, hhint, hsubset hc⟩

theorem Field.isShown_iff (f : Field) (mask : Option String) :
    f.isShown mask = true ↔ ∀ letters ∈ mask, ∃ c ∈ f.hint.toList, c ∈ letters.toList := by
  cases mask <;> simp [Field.isShown]

namespace FieldDirectory

theorem nodup_standardIds (p : Protocol) : (p.standardFields.map Field.id).Nodup := by
  cases p <;> decide +kernel

/-- No standard field is refused, since their identifiers are distinct. -/
theorem fields_insertAll_filter (p : Protocol) (q : Field → Bool) :
    (empty.insertAll (p.standardFields.filter q)).fields = p.standardFields.filter q := by
  have hnodup : ((p.standardFields.filter q).map Field.id).Nodup :=
    (List.filter_sublist.map Field.id).nodup (nodup_standardIds p)
  rw [fields_insertAll, accepted_eq_self indexed_empty hnodup fun _ _ => List.not_mem_nil]
  rfl

theorem shownFields_eq (p : Protocol) {t : TableConfig} (hmasks : t.masks = [])
    (level : Option Nat) :
    shownFields p t.mapping level = p.standardFields.filter (t.Shows level) := by
  have hmask : t.mapping.mask level = defaultMask level := by
    change t.mask level = _
    unfold TableConfig.mask
    rw [hmasks]
    cases level <;> rfl
  have homits : ∀ id, t.mapping.omits id = true ↔ id ∈ t.omitted := fun id =>
    List.contains_iff_mem
  refine List.filter_congr fun f _ => ?_
  rw [Bool.eq_iff_iff, decide_eq_true_iff, Bool.and_eq_true, Bool.not_eq_true', hmask,
    Field.isShown_iff, ← Bool.not_eq_true, homits, TableConfig.Shows]

/-- The directory of a table at a level: the standard fields that it shows, in their order, and then
the first of its own fields for each further identifier, in theirs. -/
structure Published (p : Protocol) (t : TableConfig) (level : Option Nat) (d : FieldDirectory) :
    Prop where
  nodup : d.ids.Nodup
  mem_ids_iff : ∀ id, id ∈ d.ids ↔
    (∃ f ∈ p.standardFields, t.Shows level f ∧ f.id = id) ∨ ∃ c ∈ t.customFields, c.id = id
  fields_eq : ∃ rest : List Field,
    d.fields = p.standardFields.filter (t.Shows level) ++ rest ∧
      rest.Sublist (t.customFields.map Field.ofCustom) ∧
      ∀ f, f ∈ rest ↔ (∀ g ∈ p.standardFields, t.Shows level g → g.id ≠ f.id) ∧
        (t.customFields.map Field.ofCustom).find? (·.id == f.id) = some f

theorem published_build (p : Protocol) {t : TableConfig} (hmasks : t.masks = [])
    (level : Option Nat) : Published p t level (build p t.mapping level) := by
  let customs := t.customFields.map Field.ofCustom
  let first := empty.insertAll (p.standardFields.filter (t.Shows level))
  have hbuild : build p t.mapping level = first.insertAll customs := by
    rw [build, shownFields_eq p hmasks, insertAll_append]
    rfl
  have hfirst : first.Indexed := indexed_empty.insertAll _
  have hfields : first.fields = p.standardFields.filter (t.Shows level) :=
    fields_insertAll_filter p _
  have hids : ∀ id, id ∈ first.ids ↔ ∃ f ∈ p.standardFields, t.Shows level f ∧ f.id = id := by
    intro id
    rw [ids, hfields, List.mem_map]
    simp only [List.mem_filter, decide_eq_true_iff, and_assoc]
  refine
    { nodup := (indexed_build p t.mapping level).nodup
      mem_ids_iff := fun id => ?_
      fields_eq := ⟨accepted first customs, ?_, accepted_sublist first customs, fun f => ?_⟩ }
  · rw [hbuild, mem_ids_insertAll hfirst, hids]
    simp only [customs, List.mem_map, exists_exists_and_eq_and, Field.ofCustom]
  · rw [hbuild, fields_insertAll, hfields]
  · rw [mem_accepted_iff hfirst, hids]
    refine and_congr_left fun _ => ?_
    simp only [not_exists, not_and, ne_eq]

theorem ids_build_subset (p : Protocol) {t : TableConfig} (hmasks : t.masks = [])
    {low high : Option Nat} (h : LevelLE low high) :
    (build p t.mapping low).ids ⊆ (build p t.mapping high).ids := by
  intro id hid
  rw [(published_build p hmasks low).mem_ids_iff] at hid
  rw [(published_build p hmasks high).mem_ids_iff]
  exact hid.imp_left fun ⟨f, hf, hlow, heq⟩ => ⟨f, hf, TableConfig.shows_mono h hlow, heq⟩

/-- A higher level hides no field: it has the identifiers of the lower ones, whatever a table leaves
out and publishes. -/
theorem published_mono (p : Protocol) (t : TableConfig) (hmasks : t.masks = []) :
    (∀ low high, LevelLE low high →
      (build p t.mapping low).ids ⊆ (build p t.mapping high).ids) ∧
      ∀ level, Published p t level (build p t.mapping level) :=
  ⟨fun _ _ => ids_build_subset p hmasks, published_build p hmasks⟩

/-- The table leaves the access URL out and publishes it itself, with a field of its own that is
given twice and one in the stead of the region, which the lowest level does not show. -/
theorem published_mono_of_reused :
    let t : TableConfig :=
      { omitted := ["access_url"]
        customFields := [⟨"s_region", "char", none, none, none, none, none⟩,
          ⟨"flux", "double", none, none, none, none, none⟩,
          ⟨"access_url", "char", none, none, none, none, none⟩,
          ⟨"flux", "float", none, none, none, none, none⟩] }
    (build .image t.mapping (some 0)).ids.drop 14 = ["s_region", "flux", "access_url"] ∧
      "s_region" ∈ (shownFields .image t.mapping none).map Field.id ∧
      t.masks = [] ∧ LevelLE (some 0) none ∧
      (build .image t.mapping (some 0)).ids ⊆ (build .image t.mapping none).ids ∧
      Published .image t (some 0) (build .image t.mapping (some 0)) := by
  intro t
  have hpublished := published_mono .image t rfl
  exact ⟨by decide +kernel, by decide +kernel, rfl, trivial, hpublished.1 (some 0) none trivial,
    hpublished.2 (some 0)⟩

end FieldDirectory

end SkyDiscovery
