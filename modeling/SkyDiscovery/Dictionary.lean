/-!
# Dictionaries

Values under text keys, held in the order of the keys.  The order is that of the code points and
is part of the type, so two dictionaries with the same values are equal (`ext_get?`), and `get?`
says all there is to know of `insert` and `erase`.
-/

namespace SkyDiscovery

universe u v

/-- The keys strictly increase. -/
def Ascending {α : Type u} (entries : List (String × α)) : Prop :=
  entries.Pairwise fun a b => a.1 < b.1

structure Dictionary (α : Type u) where
  entries : List (String × α)
  ascending : Ascending entries

namespace Dictionary

variable {α : Type u} {β : Type v}

/-! ## Operations on ordered entries -/

/-- Puts a value in its place, in the stead of the one under the same key. -/
def insertEntry (key : String) (value : α) : List (String × α) → List (String × α)
  | [] => [(key, value)]
  | (k, v) :: rest =>
    if key < k then (key, value) :: (k, v) :: rest
    else if key = k then (key, value) :: rest
    else (k, v) :: insertEntry key value rest

theorem mem_insertEntry {key : String} {value : α} {es : List (String × α)} {e : String × α}
    (h : e ∈ insertEntry key value es) : e = (key, value) ∨ e ∈ es := by
  induction es with
  | nil => simpa [insertEntry] using h
  | cons x rest ih =>
    obtain ⟨k, v⟩ := x
    simp only [insertEntry] at h
    split at h
    · simpa using h
    · split at h
      · simp only [List.mem_cons] at h ⊢
        exact h.imp id Or.inr
      · simp only [List.mem_cons] at h ⊢
        rcases h with h | h
        · exact Or.inr (Or.inl h)
        · exact (ih h).imp id Or.inr

theorem ascending_insertEntry (key : String) (value : α) {es : List (String × α)}
    (h : Ascending es) : Ascending (insertEntry key value es) := by
  induction es with
  | nil => simp [insertEntry, Ascending]
  | cons x rest ih =>
    obtain ⟨k, v⟩ := x
    have hrest : Ascending rest := h.tail
    have hk : ∀ e ∈ rest, k < e.1 := fun e he => List.rel_of_pairwise_cons h he
    simp only [insertEntry]
    split
    · next hlt =>
      refine List.Pairwise.cons (fun e he => ?_) h
      rcases List.mem_cons.1 he with rfl | he
      · exact hlt
      · exact String.lt_trans hlt (hk e he)
    · next hlt =>
      split
      · next heq => exact List.Pairwise.cons (fun e he => heq ▸ hk e he) hrest
      · next hne =>
        refine List.Pairwise.cons (fun e he => ?_) (ih hrest)
        rcases mem_insertEntry he with rfl | he
        · simp only
          grind
        · exact hk e he

/-! ## Dictionaries -/

def empty : Dictionary α := ⟨[], List.Pairwise.nil⟩

instance : EmptyCollection (Dictionary α) := ⟨empty⟩

instance : Inhabited (Dictionary α) := ⟨empty⟩

def insert (d : Dictionary α) (key : String) (value : α) : Dictionary α :=
  ⟨insertEntry key value d.entries, ascending_insertEntry key value d.ascending⟩

def erase (d : Dictionary α) (key : String) : Dictionary α :=
  ⟨d.entries.filter fun e => e.1 != key, d.ascending.filter _⟩

def get? (d : Dictionary α) (key : String) : Option α :=
  (d.entries.find? fun e => e.1 == key).map Prod.snd

def contains (d : Dictionary α) (key : String) : Bool :=
  (d.get? key).isSome

def keys (d : Dictionary α) : List String :=
  d.entries.map Prod.fst

def values (d : Dictionary α) : List α :=
  d.entries.map Prod.snd

def size (d : Dictionary α) : Nat :=
  d.entries.length

def isEmpty (d : Dictionary α) : Bool :=
  d.entries.isEmpty

/-- The dictionary of a list of entries; of several under one key the last counts. -/
def ofList (es : List (String × α)) : Dictionary α :=
  es.foldl (fun d e => d.insert e.1 e.2) ∅

/-- The first value, in the order of the keys, whose key satisfies `p`. -/
def find? (d : Dictionary α) (p : String → Bool) : Option α :=
  (d.entries.find? fun e => p e.1).map Prod.snd

/-! ## The view through `get?` -/

@[simp] theorem get?_empty (key : String) : (∅ : Dictionary α).get? key = none := rfl

theorem find?_insertEntry (key : String) (value : α) (es : List (String × α)) (k : String) :
    Ascending es → ((insertEntry key value es).find? fun e => e.1 == k).map Prod.snd =
      if key = k then some value else (es.find? fun e => e.1 == k).map Prod.snd := by
  induction es with
  | nil =>
    intro _
    by_cases h : key = k <;> simp [insertEntry, h]
  | cons x rest ih =>
    obtain ⟨k', v⟩ := x
    intro h
    have hrest := ih h.tail
    simp only [insertEntry]
    split
    · by_cases hk : key = k <;> simp [hk]
    · split
      · next heq => subst heq; by_cases hk : key = k <;> simp [hk]
      · next hne =>
        by_cases hk : k' = k
        · have : key ≠ k := fun e => hne (e.trans hk.symm)
          simp [hk, this]
        · simpa [hk] using hrest

@[simp] theorem get?_insert (d : Dictionary α) (key : String) (value : α) (k : String) :
    (d.insert key value).get? k = if key = k then some value else d.get? k :=
  find?_insertEntry key value d.entries k d.ascending

@[simp] theorem get?_erase (d : Dictionary α) (key k : String) :
    (d.erase key).get? k = if key = k then none else d.get? k := by
  obtain ⟨es, hes⟩ := d
  simp only [get?, erase]
  clear hes
  induction es with
  | nil => simp
  | cons x rest ih =>
    obtain ⟨k', v⟩ := x
    by_cases hk : k' = key
    · subst hk
      by_cases h : k' = k
      · simp [h]
      · simpa [h] using ih
    · by_cases h : k' = k
      · subst h
        have : ¬ key = k' := fun e => hk e.symm
        simp [hk, this]
      · simpa [hk, h] using ih

theorem get?_eq_some_iff (d : Dictionary α) (key : String) (value : α) :
    d.get? key = some value ↔ (key, value) ∈ d.entries := by
  obtain ⟨es, hes⟩ := d
  simp only [get?]
  induction es with
  | nil => simp
  | cons x rest ih =>
    obtain ⟨k, v⟩ := x
    have hk : ∀ e ∈ rest, k < e.1 := fun e he => List.rel_of_pairwise_cons hes he
    by_cases h : k = key
    · subst h
      have : (k, value) ∉ rest := fun hm => String.lt_irrefl _ (hk _ hm)
      simp [this, eq_comm]
    · have h' : ¬ key = k := fun e => h e.symm
      simpa [h, h'] using ih hes.tail

/-- Two dictionaries with the same entries in any order are equal. -/
theorem entries_eq_of_mem_iff {es fs : List (String × α)} (hes : Ascending es)
    (hfs : Ascending fs) (h : ∀ e, e ∈ es ↔ e ∈ fs) : es = fs := by
  induction es generalizing fs with
  | nil =>
    cases fs with
    | nil => rfl
    | cons f fs => exact absurd ((h f).2 List.mem_cons_self) (by simp)
  | cons e es ih =>
    cases fs with
    | nil => exact absurd ((h e).1 List.mem_cons_self) (by simp)
    | cons f fs =>
      have he : ∀ x ∈ es, e.1 < x.1 := fun x hx => List.rel_of_pairwise_cons hes hx
      have hf : ∀ x ∈ fs, f.1 < x.1 := fun x hx => List.rel_of_pairwise_cons hfs hx
      have hef : e = f := by
        rcases List.mem_cons.1 ((h e).1 List.mem_cons_self) with h₁ | h₁
        · exact h₁
        · rcases List.mem_cons.1 ((h f).2 List.mem_cons_self) with h₂ | h₂
          · exact h₂.symm
          · exact absurd (String.lt_trans (hf e h₁) (he f h₂)) (String.lt_irrefl _)
      subst hef
      congr 1
      refine ih hes.tail hfs.tail fun x => ⟨fun hx => ?_, fun hx => ?_⟩
      · rcases List.mem_cons.1 ((h x).1 (List.mem_cons_of_mem _ hx)) with rfl | h₁
        · exact absurd (he _ hx) (String.lt_irrefl _)
        · exact h₁
      · rcases List.mem_cons.1 ((h x).2 (List.mem_cons_of_mem _ hx)) with rfl | h₁
        · exact absurd (hf _ hx) (String.lt_irrefl _)
        · exact h₁

theorem ext_get? {d e : Dictionary α} (h : ∀ k, d.get? k = e.get? k) : d = e := by
  obtain ⟨es, hes⟩ := d
  obtain ⟨fs, hfs⟩ := e
  congr
  refine entries_eq_of_mem_iff hes hfs fun x => ?_
  rw [← get?_eq_some_iff ⟨es, hes⟩, ← get?_eq_some_iff ⟨fs, hfs⟩, h]

end Dictionary

end SkyDiscovery
