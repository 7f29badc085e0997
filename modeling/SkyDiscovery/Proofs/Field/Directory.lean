import SkyDiscovery.Field.Directory
import SkyDiscovery.Proofs.Dictionary

/-!
# The indexes of a directory

A directory that is made by adding fields declares each identifier once, and its index knows exactly
the identifiers that are declared.  Both indexes lead to the first field there is.

* `Indexed.insertAll`: the identifiers of a directory.
* `Placed.insertAll`: the places to which the indexes lead.
* `Placed.named?_eq`: the field that a keyword names, found without an index.
-/

namespace SkyDiscovery.FieldDirectory

/-- The identifiers are distinct, and the index has them and no others. -/
structure Indexed (d : FieldDirectory) : Prop where
  contains_iff : ∀ id, d.contains id = true ↔ id ∈ d.ids
  nodup : d.ids.Nodup

theorem indexed_empty : empty.Indexed where
  contains_iff id := by simp [contains, empty, ids, Dictionary.contains]
  nodup := List.nodup_nil

namespace Indexed

variable {d : FieldDirectory}

theorem append (h : d.Indexed) {f : Field} (hnew : d.contains f.id = false) :
    (d.append f).Indexed where
  contains_iff id := by
    have hids : (d.append f).ids = d.ids ++ [f.id] := List.map_append
    rw [hids, contains, Dictionary.contains_iff_mem_keys, FieldDirectory.append,
      Dictionary.mem_keys_insert, ← Dictionary.contains_iff_mem_keys, List.mem_append,
      List.mem_singleton, ← h.contains_iff, or_comm, contains]
  nodup := by
    have hids : (d.append f).ids = d.ids ++ [f.id] := List.map_append
    rw [hids, List.nodup_append]
    refine ⟨h.nodup, List.nodup_singleton _, fun id hid id' hid' heq => ?_⟩
    obtain rfl := List.mem_singleton.1 hid'
    rw [← h.contains_iff, heq, hnew] at hid
    cases hid

theorem insert (h : d.Indexed) (f : Field) : (d.insert f).1.Indexed := by
  unfold FieldDirectory.insert
  split
  · exact h
  · next hnew => exact h.append (Bool.eq_false_iff.2 hnew)

theorem insertAll (h : d.Indexed) (fs : List Field) : (d.insertAll fs).Indexed := by
  induction fs generalizing d with
  | nil => exact h
  | cons f fs ih => exact ih (h.insert f)

end Indexed

theorem indexed_build (p : Protocol) (t : TableMapping) (verbosity : Option Nat) :
    (build p t verbosity).Indexed :=
  indexed_empty.insertAll _

/-! ## Places -/

/-- Each index has the place of the first field with what is looked for. -/
structure Placed (d : FieldDirectory) : Prop where
  byId_eq : ∀ id, d.byId.get? id = d.fields.findIdx? (·.id == id)
  byUtype_eq : ∀ utype, d.byUtype.get? utype =
    if utype = "" then none else d.fields.findIdx? (·.utype == utype)

/-- The first field with a data-model name; no field has the empty one. -/
def firstWithUtype? (fields : List Field) (utype : String) : Option Field :=
  if utype = "" then none else fields.find? (·.utype == utype)

/-- The field among several that a keyword names: the one with this identifier, or else the first
with this data-model name. -/
def namedAmong? (fields : List Field) (keyword : String) : Option Field :=
  (fields.find? (·.id == keyword)).or (firstWithUtype? fields keyword)

theorem placed_empty : empty.Placed where
  byId_eq _ := rfl
  byUtype_eq utype := by
    rw [show empty.byUtype.get? utype = none from rfl]
    exact (ite_self none).symm

theorem get?_indexUtype (index : Dictionary Nat) (utype : String) (place : Nat) (k : String) :
    (indexUtype index utype place).get? k =
      (index.get? k).or (if utype = k ∧ k ≠ "" then some place else none) := by
  unfold indexUtype
  split
  · next hkept =>
    rw [Bool.or_eq_true, String.isEmpty_iff] at hkept
    split
    · next hk =>
      obtain ⟨rfl, hne⟩ := hk
      obtain ⟨old, hold⟩ := Option.isSome_iff_exists.1 (hkept.resolve_left hne)
      rw [hold, Option.some_or]
    · rw [Option.or_none]
  · next hnew =>
    rw [Bool.or_eq_true, String.isEmpty_iff, not_or] at hnew
    rw [Dictionary.get?_insert]
    split
    · next hk =>
      subst hk
      have hnone : index.get? utype = none := Option.not_isSome_iff_eq_none.1 hnew.2
      rw [hnone, if_pos ⟨rfl, hnew.1⟩, Option.none_or]
    · next hk => rw [if_neg fun h => hk h.1, Option.or_none]

namespace Placed

variable {d : FieldDirectory}

theorem append (h : d.Placed) {f : Field} (hnew : d.contains f.id = false) :
    (d.append f).Placed where
  byId_eq id := by
    have hfields : (d.append f).fields = d.fields ++ [f] := rfl
    rw [hfields, List.findIdx?_append, FieldDirectory.append, Dictionary.get?_insert, ← h.byId_eq]
    by_cases hid : f.id = id
    · have hnone : d.byId.get? id = none := by
        rw [← hid]
        exact Option.not_isSome_iff_eq_none.1 (Bool.eq_false_iff.1 hnew)
      simp [hid, hnone]
    · simp [hid]
  byUtype_eq utype := by
    have hfields : (d.append f).fields = d.fields ++ [f] := rfl
    rw [hfields, List.findIdx?_append, FieldDirectory.append, get?_indexUtype, h.byUtype_eq]
    by_cases hempty : utype = ""
    · simp [hempty]
    · by_cases hutype : f.utype = utype <;> simp [hempty, hutype]

theorem insert (h : d.Placed) (f : Field) : (d.insert f).1.Placed := by
  unfold FieldDirectory.insert
  split
  · exact h
  · next hnew => exact h.append (Bool.eq_false_iff.2 hnew)

theorem insertAll (h : d.Placed) (fs : List Field) : (d.insertAll fs).Placed := by
  induction fs generalizing d with
  | nil => exact h
  | cons f fs ih => exact ih (h.insert f)

theorem get?_eq (h : d.Placed) (id : String) : d.get? id = d.fields.find? (·.id == id) := by
  rw [FieldDirectory.get?, h.byId_eq, List.find?_eq_bind_findIdx?_getElem?]

theorem ofUtype?_eq (h : d.Placed) (utype : String) :
    d.ofUtype? utype = firstWithUtype? d.fields utype := by
  rw [ofUtype?, h.byUtype_eq, firstWithUtype?]
  split
  · rfl
  · rw [List.find?_eq_bind_findIdx?_getElem?]

theorem named?_eq (h : d.Placed) (keyword : String) :
    d.named? keyword = namedAmong? d.fields keyword := by
  rw [named?, h.get?_eq, h.ofUtype?_eq, namedAmong?]

end Placed

theorem mem_of_namedAmong? {fields : List Field} {keyword : String} {f : Field}
    (h : namedAmong? fields keyword = some f) : f ∈ fields := by
  rcases Option.or_eq_some_iff.1 h with hid | ⟨-, hutype⟩
  · exact List.mem_of_find?_eq_some hid
  · unfold firstWithUtype? at hutype
    split at hutype
    · cases hutype
    · exact List.mem_of_find?_eq_some hutype

/-- Fields with one identifier are one field. -/
theorem Indexed.eq_of_id_eq {d : FieldDirectory} (h : d.Indexed) {f g : Field} (hf : f ∈ d.fields)
    (hg : g ∈ d.fields) (hid : f.id = g.id) : f = g :=
  List.inj_on_of_nodup_map h.nodup hf hg hid

end SkyDiscovery.FieldDirectory
