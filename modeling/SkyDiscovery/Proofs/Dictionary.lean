import Mathlib.Data.List.Nodup
import SkyDiscovery.Dictionary

/-!
# The keys of a dictionary

Each key occurs once, and inserting adds no key but its own.  Of a list of entries the last with a
key counts.

* `get?_ofList_append`: the entries of a second list count before those of the first.
* `ofList_of_perm`: a dictionary is given back by its entries in any order.
-/

namespace SkyDiscovery.Dictionary

variable {α : Type}

theorem nodup_keys (d : Dictionary α) : d.keys.Nodup := by
  rw [keys, List.Nodup, List.pairwise_map]
  refine d.ascending.imp fun hlt heq => ?_
  rw [heq] at hlt
  exact String.lt_irrefl _ hlt

theorem mem_keys_iff (d : Dictionary α) (k : String) : k ∈ d.keys ↔ ∃ x, d.get? k = some x := by
  simp only [keys, List.mem_map, get?_eq_some_iff]
  constructor
  · rintro ⟨⟨k, x⟩, hmem, rfl⟩
    exact ⟨x, hmem⟩
  · rintro ⟨x, hmem⟩
    exact ⟨(k, x), hmem, rfl⟩

theorem contains_iff_mem_keys (d : Dictionary α) (k : String) :
    d.contains k = true ↔ k ∈ d.keys := by
  rw [contains, mem_keys_iff, Option.isSome_iff_exists]

theorem mem_keys_insert (d : Dictionary α) (key : String) (x : α) (k : String) :
    k ∈ (d.insert key x).keys ↔ k = key ∨ k ∈ d.keys := by
  rw [mem_keys_iff, mem_keys_iff, get?_insert]
  by_cases h : key = k
  · simp [h]
  · simp [h, Ne.symm h]

/-! ## Dictionaries of lists -/

/-- What is inserted later counts before what was there. -/
theorem get?_foldl_insert (es : List (String × α)) (d : Dictionary α) (k : String) :
    (es.foldl (fun d e => d.insert e.1 e.2) d).get? k = ((ofList es).get? k).or (d.get? k) := by
  induction es generalizing d with
  | nil => rfl
  | cons e es ih =>
    rw [ofList, List.foldl_cons, List.foldl_cons, ih, ih (insert ∅ e.1 e.2), Option.or_assoc,
      get?_insert, get?_insert]
    split
    · rfl
    · rfl

theorem get?_ofList_cons (e : String × α) (es : List (String × α)) (k : String) :
    (ofList (e :: es)).get? k =
      ((ofList es).get? k).or (if e.1 = k then some e.2 else none) := by
  rw [ofList, List.foldl_cons, get?_foldl_insert, get?_insert, get?_empty]

theorem get?_ofList_append (es fs : List (String × α)) (k : String) :
    (ofList (es ++ fs)).get? k = ((ofList fs).get? k).or ((ofList es).get? k) := by
  rw [ofList, List.foldl_append, get?_foldl_insert]
  rfl

theorem mem_keys_ofList (es : List (String × α)) (k : String) :
    k ∈ (ofList es).keys ↔ k ∈ es.map Prod.fst := by
  rw [← contains_iff_mem_keys, contains]
  induction es with
  | nil => simp [ofList]
  | cons e es ih =>
    rw [get?_ofList_cons, Option.isSome_or, Bool.or_eq_true, ih, List.map_cons, List.mem_cons,
      or_comm, eq_comm (a := k)]
    split <;> simp [*]

theorem mem_of_get?_ofList {es : List (String × α)} {k : String} {x : α}
    (h : (ofList es).get? k = some x) : (k, x) ∈ es := by
  induction es with
  | nil => cases h
  | cons e es ih =>
    rw [get?_ofList_cons, Option.or_eq_some_iff] at h
    rcases h with hrest | ⟨-, hfirst⟩
    · exact List.mem_cons_of_mem _ (ih hrest)
    · rw [Option.ite_none_right_eq_some] at hfirst
      obtain ⟨rfl, hx⟩ := hfirst
      cases hx
      exact List.mem_cons_self

/-- The entries of a dictionary give it back, whatever order they are inserted in. -/
theorem ofList_of_perm {es : List (String × α)} {d : Dictionary α} (h : es.Perm d.entries) :
    ofList es = d := by
  refine ext_get? fun k => ?_
  cases hget : (ofList es).get? k with
  | some x =>
    exact ((d.get?_eq_some_iff k x).2 (h.mem_iff.1 (mem_of_get?_ofList hget))).symm
  | none =>
    symm
    rw [Option.eq_none_iff_forall_ne_some]
    intro x hx
    have hmem : (k, x) ∈ es := h.mem_iff.2 ((d.get?_eq_some_iff k x).1 hx)
    have hkey : k ∈ (ofList es).keys := (mem_keys_ofList es k).2 (List.mem_map_of_mem hmem)
    obtain ⟨y, hy⟩ := (mem_keys_iff _ k).1 hkey
    rw [hget] at hy
    cases hy

end SkyDiscovery.Dictionary
