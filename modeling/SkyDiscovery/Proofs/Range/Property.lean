import SkyDiscovery.Proofs.Range.Endpoint

/-!
# Properties read from their own text

The properties that reading leaves behind have distinct names, and neither names nor values hold a
mark at which a list of properties is cut.  Written one after the other they are read as they were.

* `ReadableProperties.addProperties`: what reading leaves behind.
* `addProperties_write`: written properties are read back in order.
* `Latest.set`: each name keeps its place and takes the value that is set last.
* `addProperty_eq`, `addProperties_fst`: the properties that items set.
-/

namespace SkyDiscovery.RangeList

open Text

/-! ## Entries -/

theorem setEntry_of_not_mem {key : String} {ps : List (String × String)}
    (h : key ∉ ps.map Prod.fst) (value : String) :
    setEntry key value ps = ps ++ [(key, value)] := by
  induction ps with
  | nil => rfl
  | cons p ps ih =>
    rw [List.map_cons, List.mem_cons, not_or] at h
    rw [setEntry, if_neg (Ne.symm h.1), ih h.2]
    rfl

theorem map_fst_setEntry {key : String} {ps : List (String × String)}
    (h : key ∈ ps.map Prod.fst) (value : String) :
    (setEntry key value ps).map Prod.fst = ps.map Prod.fst := by
  induction ps with
  | nil => cases h
  | cons p ps ih =>
    obtain ⟨k, v⟩ := p
    rw [setEntry]
    by_cases hk : k = key
    · rw [if_pos hk]
      rfl
    · rw [if_neg hk, List.map_cons, List.map_cons, ih]
      rcases List.mem_cons.1 h with h | h
      · exact absurd h.symm hk
      · exact h

theorem mem_setEntry {key value : String} {ps : List (String × String)} {p : String × String}
    (h : p ∈ setEntry key value ps) : p = (key, value) ∨ p ∈ ps := by
  induction ps with
  | nil => exact Or.inl (List.mem_singleton.1 h)
  | cons q ps ih =>
    obtain ⟨k, v⟩ := q
    rw [setEntry] at h
    split at h
    · next hk =>
      rcases List.mem_cons.1 h with rfl | h
      · exact Or.inl (by rw [hk])
      · exact Or.inr (List.mem_cons_of_mem _ h)
    · rcases List.mem_cons.1 h with rfl | h
      · exact Or.inr List.mem_cons_self
      · rcases ih h with h | h
        · exact Or.inl h
        · exact Or.inr (List.mem_cons_of_mem _ h)

theorem nodup_setEntry {ps : List (String × String)} (h : (ps.map Prod.fst).Nodup)
    (key value : String) : ((setEntry key value ps).map Prod.fst).Nodup := by
  by_cases hkey : key ∈ ps.map Prod.fst
  · rw [map_fst_setEntry hkey]
    exact h
  · rw [setEntry_of_not_mem hkey, List.map_append, List.nodup_append]
    refine ⟨h, List.nodup_singleton _, fun a ha b hb hab => hkey ?_⟩
    rw [List.map_singleton, List.mem_singleton] at hb
    rwa [hab, hb] at ha

theorem lookup_setEntry (key value : String) (ps : List (String × String)) (name : String) :
    (setEntry key value ps).lookup name = if name = key then some value else ps.lookup name := by
  induction ps with
  | nil =>
    rw [setEntry, List.lookup_singleton, List.lookup_nil]
    simp only [beq_iff_eq]
  | cons p ps ih =>
    obtain ⟨k, v⟩ := p
    rw [setEntry]
    by_cases hk : k = key
    · by_cases hname : name = key
      · simp [hk, hname]
      · rw [if_pos hk, if_neg hname, List.lookup_cons, List.lookup_cons, hk,
          beq_eq_false_iff_ne.2 hname]
    · rw [if_neg hk, List.lookup_cons, List.lookup_cons, ih]
      by_cases hname : name = k
      · simp [hname, hk]
      · rw [beq_eq_false_iff_ne.2 hname]

/-- The properties `ps` are what settings one after the other leave behind: each name stands once,
in the place where it was first set, with the value that it was given last. -/
structure Latest (settings ps : List (String × String)) : Prop where
  nodup : (ps.map Prod.fst).Nodup
  names : ps.map Prod.fst = (settings.map Prod.fst).eraseDups
  values : ∀ name, ps.lookup name = settings.reverse.lookup name

theorem latest_nil : Latest [] [] where
  nodup := List.nodup_nil
  names := rfl
  values _ := rfl

theorem Latest.set {settings ps : List (String × String)} (h : Latest settings ps)
    (key value : String) : Latest (settings ++ [(key, value)]) (setEntry key value ps) := by
  refine ⟨nodup_setEntry h.nodup key value, ?_, fun name => ?_⟩
  · have hmem : key ∈ settings.map Prod.fst ↔ key ∈ ps.map Prod.fst := by
      rw [h.names, List.mem_eraseDups]
    rw [List.map_append, List.eraseDups_append, ← h.names]
    by_cases hkey : key ∈ ps.map Prod.fst
    · have hnone : [key].removeAll (settings.map Prod.fst) = [] := by
        rw [List.removeAll, List.filter_cons_of_neg (by simpa using hmem.2 hkey), List.filter_nil]
      rw [map_fst_setEntry hkey, List.map_singleton, hnone, List.eraseDups_nil, List.append_nil]
    · have hone : [key].removeAll (settings.map Prod.fst) = [key] := by
        rw [List.removeAll, List.filter_cons_of_pos (by simpa using mt hmem.1 hkey),
          List.filter_nil]
      rw [setEntry_of_not_mem hkey, List.map_append, List.map_singleton, hone]
      rfl
  · rw [lookup_setEntry, h.values, List.reverse_append, List.reverse_singleton,
      List.singleton_append, List.lookup_cons]
    by_cases hname : name = key
    · rw [if_pos hname, beq_iff_eq.2 hname]
    · rw [if_neg hname, beq_eq_false_iff_ne.2 hname]

/-! ## Properties that were read -/

/-- The name and the value can be told apart and told from other properties. -/
structure ReadableProperty (p : String × String) : Prop where
  name : IsItem isListMark p.1.toList
  equals : '=' ∉ p.1.toList
  value : IsPart isListMark p.2.toList

/-- What reading leaves behind of properties. -/
structure ReadableProperties (ps : List (String × String)) : Prop where
  nodup : (ps.map Prod.fst).Nodup
  entries : ∀ p ∈ ps, ReadableProperty p

theorem ReadableProperties.set {ps : List (String × String)} (h : ReadableProperties ps)
    {key value : String} (hp : ReadableProperty (key, value)) :
    ReadableProperties (setEntry key value ps) := by
  refine ⟨nodup_setEntry h.nodup key value, fun p hmem => ?_⟩
  rcases mem_setEntry hmem with rfl | hmem
  · exact hp
  · exact h.entries p hmem

theorem addProperty_eq_ok {s t : RangeList} {item : List Char} (hitem : IsItem isListMark item)
    (h : s.addProperty item = .ok t) :
    ∃ key value, ReadableProperty (key, value) ∧
      t = { s with properties := setEntry key value s.properties } := by
  unfold addProperty at h
  split at h
  · next hcut =>
    cases h
    refine ⟨String.ofList item, "true", ⟨?_, ?_, ?_⟩, rfl⟩
    · rwa [String.toList_ofList]
    · rw [String.toList_ofList]
      exact not_mem_of_cut_eq_none hcut
    · show IsPart isListMark "true".toList
      exact ⟨by decide, by decide⟩
  · next key value hcut =>
    split at h
    · cases h
    · next hkey =>
      cases h
      obtain ⟨rfl, hequals⟩ := cut_eq_some hcut
      have hno : ∀ c ∈ key ++ '=' :: value, isListMark c = false := hitem.no_stop
      refine ⟨String.ofList (trim key), String.ofList (trim value), ⟨?_, ?_, ?_⟩, rfl⟩
      · rw [String.toList_ofList]
        exact ⟨isPart_trim fun c hc => hno c (List.mem_append_left _ hc), by simpa using hkey⟩
      · rw [String.toList_ofList]
        exact fun hmem => hequals (mem_of_mem_trim hmem)
      · rw [String.toList_ofList]
        exact isPart_trim fun c hc => hno c (by simp [hc])

theorem addProperties_cons_eq_ok {s t : RangeList} {i : List Char} {is : List (List Char)} {n : Nat}
    (h : s.addProperties (i :: is) = (t, .ok n)) :
    ∃ u m, s.addProperty i = .ok u ∧ u.addProperties is = (t, .ok m) := by
  unfold addProperties at h
  split at h
  · cases h
  · next u hu =>
    cases hrest : u.addProperties is with
    | mk v result =>
      rw [hrest] at h
      cases result with
      | error f => cases h
      | ok m =>
        cases h
        exact ⟨u, m, hu, hrest⟩

/-- Properties that are read leave the ranges as they are. -/
theorem ReadableProperties.addProperties {s t : RangeList} {is : List (List Char)}
    (his : ∀ i ∈ is, IsItem isListMark i) (hs : ReadableProperties s.properties) {n : Nat}
    (h : s.addProperties is = (t, .ok n)) :
    ReadableProperties t.properties ∧ t = { s with properties := t.properties } := by
  induction is generalizing s n with
  | nil =>
    cases h
    exact ⟨hs, rfl⟩
  | cons i is ih =>
    obtain ⟨u, m, hu, hrest⟩ := addProperties_cons_eq_ok h
    obtain ⟨key, value, hp, rfl⟩ := addProperty_eq_ok (his i List.mem_cons_self) hu
    have hlater : ∀ i ∈ is, IsItem isListMark i := fun i hi => his i (List.mem_cons_of_mem _ hi)
    obtain ⟨hproperties, ht⟩ :=
      @ih { s with properties := setEntry key value s.properties } hlater (hs.set hp) m hrest
    exact ⟨hproperties, ht⟩

/-! ## What items set -/

/-- The name and the value that an item sets; an item without a value sets its name to `true`. -/
def setting (item : List Char) : String × String :=
  match cut '=' item with
  | none => (String.ofList item, "true")
  | some (key, value) => (String.ofList (trim key), String.ofList (trim value))

/-- The item begins with the sign that a name should stand before. -/
def IsUnnamed (item : List Char) : Prop :=
  item.head? = some '='

instance : DecidablePred IsUnnamed :=
  fun item => inferInstanceAs (Decidable (item.head? = some '='))

theorem isUnnamed_iff_of_cut {key value : List Char}
    (h : IsItem isListMark (key ++ '=' :: value)) (hkey : '=' ∉ key) :
    IsUnnamed (key ++ '=' :: value) ↔ trim key = [] := by
  cases key with
  | nil => exact iff_of_true rfl rfl
  | cons c cs =>
    have hc : c ≠ '=' := fun heq => hkey (heq ▸ List.mem_cons_self)
    refine iff_of_false (fun hhead => hc (Option.some.inj hhead)) fun hnil => ?_
    -- the item is trimmed, so its name does not begin with a blank
    have hblank : isBlank c = false := by
      refine not_isBlank_head_trim (c :: cs ++ '=' :: value) c ?_
      rw [h.trimmed]
      rfl
    have hall : ∀ d ∈ c :: cs, isBlank d = true := by
      obtain ⟨front, back, hcs, hfront, hback⟩ := exists_blanks_around (c :: cs)
      rw [hnil, List.nil_append] at hcs
      intro d hd
      rw [hcs, List.mem_append] at hd
      exact hd.elim (hfront d) (hback d)
    rw [hall c List.mem_cons_self] at hblank
    cases hblank

/-- An item sets its property unless it begins with the sign. -/
theorem addProperty_eq (s : RangeList) {item : List Char} (h : IsItem isListMark item) :
    s.addProperty item =
      if IsUnnamed item then .error (.unnamedProperty (String.ofList item))
      else .ok (s.setProperty (setting item).1 (some (setting item).2)) := by
  unfold addProperty setting
  cases hcut : cut '=' item with
  | none =>
    have hno := not_mem_of_cut_eq_none hcut
    have hnamed : ¬ IsUnnamed item := fun hhead => hno (List.mem_of_head? hhead)
    rw [if_neg hnamed]
    rfl
  | some parts =>
    obtain ⟨key, value⟩ := parts
    obtain ⟨rfl, hkey⟩ := cut_eq_some hcut
    have hiff := isUnnamed_iff_of_cut h hkey
    by_cases hnil : trim key = []
    · simp [hiff.2 hnil, hnil]
    · simp [mt hiff.1 hnil, hnil]

/-- Sets one property after the other. -/
def setProperties (s : RangeList) (ps : List (String × String)) : RangeList :=
  ps.foldl (fun s p => s.setProperty p.1 (some p.2)) s

theorem setProperties_eq (s : RangeList) (ps : List (String × String)) :
    s.setProperties ps = { s with properties := (s.setProperties ps).properties } := by
  induction ps generalizing s with
  | nil => rfl
  | cons p ps ih => exact ih (s.setProperty p.1 (some p.2))

theorem Latest.setProperties {s : RangeList} {settings : List (String × String)}
    (h : Latest settings s.properties) (ps : List (String × String)) :
    Latest (settings ++ ps) (s.setProperties ps).properties := by
  induction ps generalizing s settings with
  | nil => rwa [List.append_nil]
  | cons p ps ih =>
    have hset := @ih (s.setProperty p.1 (some p.2)) _ (h.set p.1 p.2)
    rwa [List.append_assoc, List.singleton_append] at hset

/-- The items before the first one without a name set their properties. -/
theorem addProperties_fst (s : RangeList) {is : List (List Char)}
    (his : ∀ i ∈ is, IsItem isListMark i) :
    (s.addProperties is).1 =
      s.setProperties ((is.takeWhile fun i => !decide (IsUnnamed i)).map setting) := by
  induction is generalizing s with
  | nil => rfl
  | cons i is ih =>
    rw [addProperties, s.addProperty_eq (his i List.mem_cons_self)]
    by_cases hi : IsUnnamed i
    · rw [if_pos hi, List.takeWhile_cons_of_neg (by simpa using hi)]
      rfl
    · rw [if_neg hi, List.takeWhile_cons_of_pos (by simpa using hi)]
      exact ih _ fun j hj => his j (List.mem_cons_of_mem _ hj)

/-- Items are read just if each of them has a name, and then they set their properties. -/
theorem exists_addProperties_eq_ok_iff {s t : RangeList} {is : List (List Char)}
    (his : ∀ i ∈ is, IsItem isListMark i) :
    (∃ n, s.addProperties is = (t, .ok n)) ↔
      (∀ i ∈ is, ¬ IsUnnamed i) ∧ s.setProperties (is.map setting) = t := by
  induction is generalizing s with
  | nil => simp [addProperties, setProperties]
  | cons i is ih =>
    have hrest := @ih (s.setProperty (setting i).1 (some (setting i).2))
      fun j hj => his j (List.mem_cons_of_mem _ hj)
    rw [List.forall_mem_cons, addProperties, s.addProperty_eq (his i List.mem_cons_self)]
    by_cases hi : IsUnnamed i
    · rw [if_pos hi]
      simp [hi]
    · rw [if_neg hi, List.map_cons, and_assoc, and_iff_right hi]
      refine Iff.trans ?_ hrest
      dsimp only
      rcases addProperties _ is with ⟨u, f | n⟩
      · simp [Except.map]
      · simp [Except.map]

/-! ## Writing -/

theorem isItem_writeProperty {p : String × String} (h : ReadableProperty p) :
    IsItem isListMark (writeProperty p) :=
  h.name.toIsPart.join h.value (by decide) (by decide)

theorem addProperty_write (s : RangeList) {p : String × String} (h : ReadableProperty p) :
    s.addProperty (writeProperty p) =
      .ok { s with properties := setEntry p.1 p.2 s.properties } := by
  have hcut : cut '=' (writeProperty p) = some (p.1.toList, p.2.toList) := cut_append h.equals _
  have hname : ¬ (trim p.1.toList).isEmpty = true := by
    rw [h.name.trimmed]
    simpa using h.name.ne_nil
  unfold addProperty
  rw [hcut]
  dsimp only
  rw [if_neg hname, h.name.trimmed, h.value.trimmed, String.ofList_toList, String.ofList_toList]
  rfl

/-- Written properties are read back in order. -/
theorem addProperties_write {s : RangeList} {ps : List (String × String)}
    (h : ReadableProperties (s.properties ++ ps)) :
    s.addProperties (ps.map writeProperty) =
      ({ s with properties := s.properties ++ ps }, .ok ps.length) := by
  induction ps generalizing s with
  | nil =>
    rw [List.append_nil]
    rfl
  | cons p ps ih =>
    have hp : ReadableProperty p := h.entries p (by simp)
    have hfresh : p.1 ∉ s.properties.map Prod.fst := by
      intro hmem
      have hnodup := h.nodup
      rw [List.map_append, List.nodup_append] at hnodup
      exact hnodup.2.2 p.1 hmem p.1 (by simp) rfl
    have hset : setEntry p.1 p.2 s.properties = s.properties ++ [p] :=
      setEntry_of_not_mem hfresh p.2
    have hrest := @ih { s with properties := s.properties ++ [p] } (by simpa using h)
    rw [List.map_cons, addProperties, addProperty_write s hp, hset]
    dsimp only
    rw [hrest, List.append_assoc, List.singleton_append]
    rfl

end SkyDiscovery.RangeList
