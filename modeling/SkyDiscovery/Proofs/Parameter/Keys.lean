import Mathlib.Data.List.DropRight
import SkyDiscovery.Proofs.Parameter.Agreement
import SkyDiscovery.Proofs.Range.Pieces

/-!
# Parameters by their keys

The pairs of a request have nothing to do with each other but for those under one key.  A request
is read just if the pairs of every key are read by themselves, and under each key it leaves what
they leave.

* `read_eq_ok_iff`: the content of a request, key by key.
* `Leaves`: what the pairs of one key leave.  A blank value takes away all that came before, the
  last of several values counts, and range lists run together into one.
* `read_by_keys`: both for every request.
-/

namespace SkyDiscovery.ParameterSet

/-- The pairs of a request under one key. -/
def ofKey (k : String) (pairs : List (String × String)) : List (String × String) :=
  pairs.filter fun a => key a.1 = k

/-- What a request leaves under a key, or its failure. -/
def place (p : Protocol) (s : ParameterSet) (pairs : List (String × String)) (k : String) :
    Except Failure (Option Parameter) :=
  (setAll p s pairs).map fun t => t.parameters.get? k

section

variable {p : Protocol} {s t u : ParameterSet} {k : String} {pairs : List (String × String)}

/-! ## One key at a time -/

theorem ofKey_cons_of_eq {a : String × String} (h : key a.1 = k) :
    ofKey k (a :: pairs) = a :: ofKey k pairs :=
  List.filter_cons_of_pos (decide_eq_true h)

theorem ofKey_cons_of_ne {a : String × String} (h : key a.1 ≠ k) :
    ofKey k (a :: pairs) = ofKey k pairs :=
  List.filter_cons_of_neg (by simpa using h)

theorem key_of_mem_ofKey {a : String × String} (h : a ∈ ofKey k pairs) : key a.1 = k :=
  of_decide_eq_true (List.mem_filter.1 h).2

theorem setAll_cons_of_ok {a : String × String} {x : Unit} (h : s.set p a.1 a.2 = (t, .ok x)) :
    setAll p s (a :: pairs) = setAll p t pairs := by
  rw [setAll, h]

theorem setAll_cons_of_error {a : String × String} {f : Failure}
    (h : s.set p a.1 a.2 = (t, .error f)) : setAll p s (a :: pairs) = .error f := by
  rw [setAll, h]

theorem setAll_cons_eq_ok {a : String × String} (h : setAll p s (a :: pairs) = .ok u) :
    ∃ t x, s.set p a.1 a.2 = (t, .ok x) ∧ setAll p t pairs = .ok u := by
  rcases hset : s.set p a.1 a.2 with ⟨t, f | x⟩
  · rw [setAll_cons_of_error hset] at h
    cases h
  · rw [setAll_cons_of_ok hset] at h
    exact ⟨t, x, rfl, h⟩

theorem setAll_append (xs ys : List (String × String)) :
    setAll p s (xs ++ ys) = setAll p s xs >>= fun t => setAll p t ys := by
  induction xs generalizing s with
  | nil => rfl
  | cons a xs ih =>
    rcases hset : s.set p a.1 a.2 with ⟨t, f | x⟩
    · rw [List.cons_append, setAll_cons_of_error hset, setAll_cons_of_error hset]
      rfl
    · rw [List.cons_append, setAll_cons_of_ok hset, setAll_cons_of_ok hset, ih]

/-- Under its own key, a run of pairs depends only on what was there. -/
theorem place_congr (hkey : ∀ a ∈ pairs, key a.1 = k)
    (h : s.parameters.get? k = t.parameters.get? k) : place p s pairs k = place p t pairs k := by
  induction pairs generalizing s t with
  | nil => exact congrArg Except.ok h
  | cons a pairs ih =>
    obtain rfl := hkey a List.mem_cons_self
    obtain ⟨hresult, hplace⟩ := set_congr p a.2 h
    rcases hs : s.set p a.1 a.2 with ⟨s', f | x⟩ <;> rcases ht : t.set p a.1 a.2 with ⟨t', g | y⟩ <;>
      rw [hs, ht] at hplace hresult
    · rw [place, place, setAll_cons_of_error hs, setAll_cons_of_error ht]
      cases hresult
      rfl
    · cases hresult
    · cases hresult
    · rw [place, place, setAll_cons_of_ok hs, setAll_cons_of_ok ht]
      exact ih (fun b hb => hkey b (List.mem_cons_of_mem _ hb)) hplace

/-- A pair of another key does not matter to a place. -/
theorem place_ofKey_set_of_ne {a : String × String} (h : key a.1 ≠ k) :
    place p (s.set p a.1 a.2).1 (ofKey k pairs) k = place p s (ofKey k pairs) k :=
  place_congr (fun _ hb => key_of_mem_ofKey hb) (get?_set_of_ne p s a.2 h)

theorem place_ofKey_of_setAll (h : setAll p s pairs = .ok t) :
    place p s (ofKey k pairs) k = .ok (t.parameters.get? k) := by
  induction pairs generalizing s with
  | nil =>
    cases h
    rfl
  | cons a pairs ih =>
    obtain ⟨u, x, hset, hrest⟩ := setAll_cons_eq_ok h
    by_cases hkey : key a.1 = k
    · rw [ofKey_cons_of_eq hkey, place, setAll_cons_of_ok hset]
      exact ih hrest
    · rw [ofKey_cons_of_ne hkey, ← place_ofKey_set_of_ne hkey, hset]
      exact ih hrest

theorem exists_setAll_of_places (h : ∀ k, ∃ x, place p s (ofKey k pairs) k = .ok x) :
    ∃ t, setAll p s pairs = .ok t := by
  induction pairs generalizing s with
  | nil => exact ⟨s, rfl⟩
  | cons a pairs ih =>
    -- The first pair of all is also the first under its key, so it is taken.
    rcases hset : s.set p a.1 a.2 with ⟨u, f | x⟩
    · obtain ⟨y, hy⟩ := h (key a.1)
      rw [ofKey_cons_of_eq rfl, place, setAll_cons_of_error hset] at hy
      cases hy
    · rw [setAll_cons_of_ok hset]
      refine ih fun k => ?_
      obtain ⟨y, hy⟩ := h k
      by_cases hkey : key a.1 = k
      · rw [ofKey_cons_of_eq hkey, place, setAll_cons_of_ok hset] at hy
        exact ⟨y, hy⟩
      · rw [ofKey_cons_of_ne hkey, ← place_ofKey_set_of_ne hkey, hset] at hy
        exact ⟨y, hy⟩

/-- A request is read as a set just if its pairs leave the content of the set, key by key. -/
theorem read_eq_ok_iff :
    read p pairs = .ok t ↔ ∀ k, place p empty (ofKey k pairs) k = .ok (t.parameters.get? k) := by
  constructor
  · exact fun h k => place_ofKey_of_setAll h
  · intro h
    obtain ⟨u, hu⟩ := exists_setAll_of_places fun k => ⟨_, h k⟩
    have hplaces : ∀ k, u.parameters.get? k = t.parameters.get? k := by
      intro k
      have hk := place_ofKey_of_setAll (k := k) hu
      rw [h k] at hk
      exact (Except.ok.inj hk).symm
    have hparameters : u.parameters = t.parameters := Dictionary.ext_get? hplaces
    rw [read, hu]
    exact congrArg (fun d => Except.ok (ParameterSet.mk d)) hparameters

end

/-! ## Pairs of one key -/

/-- The pairs behind the last one with a blank value. -/
def current (pairs : List (String × String)) : List (String × String) :=
  pairs.rtakeWhile fun a => !(Text.trimmed a.2).isEmpty

/-- The values of pairs, without the blanks around them and with commas between them. -/
def joined (pairs : List (String × String)) : String :=
  ",".intercalate (pairs.map fun a => Text.trimmed a.2)

/-- What pairs of one key, none of them with a blank value, leave under it: nothing comes of no
pair, only the last pair counts if it declares no ranges, and ranges are those of the joined
values as long as these have no properties. -/
structure Leaves (p : Protocol) (pairs : List (String × String)) (x : Option Parameter) : Prop where
  nothing : pairs = [] → x = none
  last : ∀ a d, pairs.getLast? = some a → declarationOf p a.1 = d →
    (∀ declared ordered, d.kind ≠ .ranges declared ordered) →
    ∃ v, ParameterValue.read d.name d.kind (Text.trimmed a.2) = .ok v ∧
      x = some ⟨d.name, d.level, Text.trimmed a.2, v⟩
  ranges : ∀ a d declared ordered, pairs.getLast? = some a → declarationOf p a.1 = d →
    d.kind = .ranges declared ordered → (∀ b ∈ pairs, ';' ∉ b.2.toList) →
    ∃ list, RangeList.read (joined pairs).toList declared ordered = .ok list ∧
      x = some ⟨d.name, d.level, joined pairs, .ranges list⟩

section

variable {p : Protocol} {s t u : ParameterSet} {pairs : List (String × String)}

theorem current_concat_of_blank {a : String × String} (h : (Text.trimmed a.2).isEmpty = true) :
    current (pairs ++ [a]) = [] :=
  List.rtakeWhile_concat_neg _ _ _ (by simp [h])

theorem current_concat {a : String × String} (h : (Text.trimmed a.2).isEmpty = false) :
    current (pairs ++ [a]) = current pairs ++ [a] :=
  List.rtakeWhile_concat_pos _ _ _ (by simp [h])

theorem joined_singleton (a : String × String) : joined [a] = Text.trimmed a.2 :=
  String.intercalate_singleton

theorem joined_concat (h : pairs ≠ []) (a : String × String) :
    joined (pairs ++ [a]) = joined pairs ++ "," ++ Text.trimmed a.2 := by
  rw [joined, List.map_append, String.intercalate_append_of_ne_nil (by simpa using h) (by simp)]
  exact congrArg (joined pairs ++ "," ++ ·) String.intercalate_singleton

theorem semicolon_not_mem_joined (h : ∀ a ∈ pairs, ';' ∉ a.2.toList) :
    ';' ∉ (joined pairs).toList := by
  have hvalues : ∀ w ∈ pairs.map fun a => (Text.trimmed a.2).toList, ';' ∉ w := by
    intro w hw
    obtain ⟨a, ha, rfl⟩ := List.mem_map.1 hw
    rw [Text.toList_trimmed]
    exact fun hmem => h a ha (Text.mem_of_mem_trim hmem)
  rw [joined, String.toList_intercalate, List.map_map]
  exact Text.not_mem_intercalate (by decide) hvalues

/-- Names with one key have one declaration, if any. -/
theorem declaration?_congr {name name' : String} (h : key name = key name') :
    p.declaration? name = p.declaration? name' := by
  unfold Protocol.declaration? Text.sameIgnoringCase
  rw [key, key] at h
  rw [h]

theorem declarationOf_congr {name name' : String} (h : key name = key name')
    (hdeclared : (declarationOf p name).kind ≠ .text) :
    declarationOf p name = declarationOf p name' := by
  unfold declarationOf at hdeclared ⊢
  rw [← declaration?_congr h]
  cases hd : p.declaration? name with
  | some d => rfl
  | none =>
    rw [hd] at hdeclared
    exact absurd rfl hdeclared

/-- The last of several ranges has the declaration of those before it. -/
theorem declarationOf_of_getLast? {a c : String × String} (hkey : ∀ b ∈ pairs, key b.1 = key a.1)
    (hc : pairs.getLast? = some c) (hdeclared : (declarationOf p a.1).kind ≠ .text) :
    declarationOf p c.1 = declarationOf p a.1 :=
  (declarationOf_congr (hkey c (List.mem_of_getLast? hc)).symm hdeclared).symm

theorem exists_of_set_first {a : String × String} {declared : Option ValueType} {ordered : Bool}
    (hkind : (declarationOf p a.1).kind = .ranges declared ordered)
    (hplace : s.parameters.get? (key a.1) = none) (hblank : (Text.trimmed a.2).isEmpty = false)
    (hset : s.set p a.1 a.2 = (t, .ok ())) :
    ∃ list, RangeList.read (Text.trimmed a.2).toList declared ordered = .ok list ∧
      t.parameters.get? (key a.1) = some ⟨(declarationOf p a.1).name, (declarationOf p a.1).level,
        Text.trimmed a.2, .ranges list⟩ := by
  have hnone := heldRanges?_of_none (d := declarationOf p a.1) hplace
  have houtcome := outcome_set p s a.1 a.2
  rw [hset] at houtcome
  cases houtcome with
  | taken blank => simp [blank] at hblank
  | extended x list u n _ held _ => cases hnone.symm.trans held
  | replaced v _ _ read =>
    rw [get?_store, if_pos rfl]
    simp only [hkind, ParameterValue.read] at read
    split at read
    · next list hread =>
      cases read
      exact ⟨list, hread, rfl⟩
    · cases read

theorem exists_of_set_further {a : String × String} {declared : Option ValueType} {ordered : Bool}
    {x : Parameter} {list : RangeList}
    (hkind : (declarationOf p a.1).kind = .ranges declared ordered)
    (hplace : s.parameters.get? (key a.1) = some x) (hvalue : x.value = .ranges list)
    (hblank : (Text.trimmed a.2).isEmpty = false) (hset : s.set p a.1 a.2 = (t, .ok ())) :
    ∃ u n, list.extend (Text.trimmed a.2).toList = (u, .ok n) ∧ t.parameters.get? (key a.1) =
      some { x with raw := x.raw ++ "," ++ Text.trimmed a.2, value := .ranges u } := by
  have hheld := heldRanges?_of_ranges hkind hplace hvalue
  have houtcome := outcome_set p s a.1 a.2
  rw [hset] at houtcome
  cases houtcome with
  | taken blank => simp [blank] at hblank
  | extended y list' u n _ held extend =>
    cases hheld.symm.trans held
    exact ⟨u, n, extend, by rw [get?_store, if_pos rfl]⟩
  | replaced v _ held _ => cases hheld.symm.trans held

theorem exists_of_set_single {a : String × String}
    (hkind : ∀ declared ordered, (declarationOf p a.1).kind ≠ .ranges declared ordered)
    (hblank : (Text.trimmed a.2).isEmpty = false) (hset : s.set p a.1 a.2 = (t, .ok ())) :
    ∃ v, ParameterValue.read (declarationOf p a.1).name (declarationOf p a.1).kind
        (Text.trimmed a.2) = .ok v ∧
      t.parameters.get? (key a.1) = some ⟨(declarationOf p a.1).name, (declarationOf p a.1).level,
        Text.trimmed a.2, v⟩ := by
  have hnone := heldRanges?_of_kind (s := s) (k := key a.1) hkind
  have houtcome := outcome_set p s a.1 a.2
  rw [hset] at houtcome
  cases houtcome with
  | taken blank => simp [blank] at hblank
  | extended x list u n _ held _ => cases hnone.symm.trans held
  | replaced v _ _ read => exact ⟨v, read, by rw [get?_store, if_pos rfl]⟩

/-- One more value behind those of its key. -/
theorem Leaves.concat {a : String × String} (h : Leaves p pairs (s.parameters.get? (key a.1)))
    (hkey : ∀ b ∈ pairs, key b.1 = key a.1) (hblank : (Text.trimmed a.2).isEmpty = false)
    (hset : s.set p a.1 a.2 = (t, .ok ())) :
    Leaves p (pairs ++ [a]) (t.parameters.get? (key a.1)) := by
  refine ⟨by simp, fun b d hb hd hkind => ?_, fun b d declared ordered hb hd hkind hsemi => ?_⟩
  · obtain rfl : a = b := by simpa using hb
    subst hd
    exact exists_of_set_single hkind hblank hset
  · obtain rfl : a = b := by simpa using hb
    subst hd
    cases hlast : pairs.getLast? with
    | none =>
      obtain rfl : pairs = [] := List.getLast?_eq_none_iff.1 hlast
      rw [List.nil_append, joined_singleton]
      exact exists_of_set_first hkind (h.nothing rfl) hblank hset
    | some c =>
      have hdeclared := declarationOf_of_getLast? (p := p) hkey hlast (by simp [hkind])
      have hbefore : ∀ b ∈ pairs, ';' ∉ b.2.toList := fun b hb => hsemi b (by simp [hb])
      obtain ⟨list, hread, hplace⟩ := h.ranges c _ declared ordered hlast hdeclared hkind hbefore
      obtain ⟨u, n, hextend, hbehind⟩ := exists_of_set_further hkind hplace rfl hblank hset
      have happend := RangeList.read_append (semicolon_not_mem_joined hbefore) hread hextend
      have hne : pairs ≠ [] := by
        rintro rfl
        cases hlast
      rw [joined_concat hne]
      exact ⟨u, by simpa using happend, hbehind⟩

theorem leaves_of_setAll {k : String} (hkey : ∀ a ∈ pairs, key a.1 = k)
    (hnone : s.parameters.get? k = none) (h : setAll p s pairs = .ok t) :
    Leaves p (current pairs) (t.parameters.get? k) := by
  induction pairs using List.reverseRecOn generalizing t with
  | nil =>
    cases h
    exact ⟨fun _ => hnone, by simp [current], by simp [current]⟩
  | append_singleton pairs a ih =>
    rw [setAll_append] at h
    obtain ⟨u, hu, hrest⟩ := exists_of_bind h
    obtain ⟨v, x, hset, hv⟩ := setAll_cons_eq_ok hrest
    cases hv
    obtain rfl : key a.1 = k := hkey a (by simp)
    have hleaves := ih (fun b hb => hkey b (by simp [hb])) hu
    -- A blank value takes back all that came before, any other comes behind it.
    cases hblank : (Text.trimmed a.2).isEmpty with
    | true =>
      rw [current_concat_of_blank hblank]
      have houtcome := outcome_set p u a.1 a.2
      rw [hset] at houtcome
      have hgone : t.parameters.get? (key a.1) = none := by
        cases houtcome with
        | taken => rw [Dictionary.get?_erase, if_pos rfl]
        | extended x list u n blank => simp [hblank] at blank
        | replaced v blank => simp [hblank] at blank
      exact ⟨fun _ => hgone, by simp, by simp⟩
    | false =>
      rw [current_concat hblank]
      refine hleaves.concat (fun b hb => hkey b ?_) hblank hset
      exact List.mem_append_left _ ((List.rtakeWhile_suffix _ pairs).mem hb)

/-! ## Requests -/

theorem exists_read_ofKey (h : read p pairs = .ok s) (k : String) :
    ∃ t, read p (ofKey k pairs) = .ok t ∧ s.parameters.get? k = t.parameters.get? k := by
  have hplace := place_ofKey_of_setAll (k := k) h
  rw [place] at hplace
  cases ht : setAll p empty (ofKey k pairs) with
  | error f =>
    rw [ht] at hplace
    cases hplace
  | ok t =>
    rw [ht] at hplace
    exact ⟨t, ht, (Except.ok.inj hplace).symm⟩

theorem leaves_of_read (h : read p pairs = .ok s) (k : String) :
    Leaves p (current (ofKey k pairs)) (s.parameters.get? k) := by
  obtain ⟨t, ht, hst⟩ := exists_read_ofKey h k
  rw [hst]
  exact leaves_of_setAll (fun a ha => key_of_mem_ofKey ha) rfl ht

/-- A value that is not followed by another one under its key is the one that counts. -/
theorem exists_of_read_last {before after : List (String × String)} {a : String × String}
    (h : read p (before ++ a :: after) = .ok s) (hafter : ∀ b ∈ after, key b.1 ≠ key a.1)
    (hkind : ∀ declared ordered, (declarationOf p a.1).kind ≠ .ranges declared ordered)
    (hblank : (Text.trimmed a.2).isEmpty = false) :
    ∃ x, s.parameters.get? (key a.1) = some x ∧ x.raw = Text.trimmed a.2 := by
  have hpairs : ofKey (key a.1) (before ++ a :: after) = ofKey (key a.1) before ++ [a] := by
    have hnone : ofKey (key a.1) after = [] :=
      List.filter_eq_nil_iff.2 fun b hb => by simpa using hafter b hb
    have hbehind : ofKey (key a.1) (a :: after) = [a] := by rw [ofKey_cons_of_eq rfl, hnone]
    rw [ofKey, List.filter_append]
    exact congrArg (ofKey (key a.1) before ++ ·) hbehind
  have hleaves := leaves_of_read h (key a.1)
  rw [hpairs, current_concat hblank] at hleaves
  obtain ⟨v, -, hplace⟩ := hleaves.last a _ (by simp) rfl hkind
  exact ⟨_, hplace, rfl⟩

/-- Ranges that are given once are read as they stand, with their properties. -/
theorem exists_ranges_of_read_once {a : String × String} {declared : Option ValueType}
    {ordered : Bool} (h : read p pairs = .ok s) (honce : ofKey (key a.1) pairs = [a])
    (hkind : (declarationOf p a.1).kind = .ranges declared ordered)
    (hblank : (Text.trimmed a.2).isEmpty = false) :
    ∃ list, RangeList.read (Text.trimmed a.2).toList declared ordered = .ok list ∧
      s.parameters.get? (key a.1) = some ⟨(declarationOf p a.1).name, (declarationOf p a.1).level,
        Text.trimmed a.2, .ranges list⟩ := by
  obtain ⟨t, ht, hst⟩ := exists_read_ofKey h (key a.1)
  rw [honce] at ht
  obtain ⟨u, x, hset, hrest⟩ := setAll_cons_eq_ok ht
  cases hrest
  rw [hst]
  exact exists_of_set_first hkind rfl hblank hset

/-- A request of one text. -/
theorem exists_read_text {name value : String} (hkind : (declarationOf p name).kind = .text)
    (hblank : (Text.trimmed value).isEmpty = false) :
    ∃ s, read p [(name, value)] = .ok s ∧
      s.parameters.get? (key name) = some ⟨(declarationOf p name).name, (declarationOf p name).level,
        Text.trimmed value, .text (Text.trimmed value)⟩ ∧
      ∀ k, k ≠ key name → s.parameters.get? k = none := by
  have hnone := heldRanges?_of_none (s := empty) (k := key name) (d := declarationOf p name) rfl
  have hset : empty.set p name value = (empty.store (key name) ⟨(declarationOf p name).name,
      (declarationOf p name).level, Text.trimmed value, .text (Text.trimmed value)⟩, .ok ()) := by
    have houtcome := outcome_set p empty name value
    generalize empty.set p name value = result at houtcome ⊢
    cases houtcome with
    | taken blank => simp [hblank] at blank
    | extended x list t n _ held _ => cases hnone.symm.trans held
    | stopped x list t f _ held _ => cases hnone.symm.trans held
    | replaced v _ _ read =>
      rw [hkind] at read
      cases read
      rfl
    | refused f _ _ read =>
      rw [hkind] at read
      cases read
  refine ⟨_, setAll_cons_of_ok (a := (name, value)) hset, ?_, fun k hk => ?_⟩
  · rw [get?_store, if_pos rfl]
  · rw [get?_store, if_neg (Ne.symm hk)]
    rfl

/-- A request is read just if the pairs of every key are read by themselves.  It then holds under
each key what these pairs alone leave, so that only their order matters: what comes behind their
last blank value, and of that the last value, or all ranges joined. -/
theorem read_by_keys (p : Protocol) (pairs : List (String × String)) :
    ((∃ s, read p pairs = .ok s) ↔ ∀ k, ∃ t, read p (ofKey k pairs) = .ok t) ∧
      (∀ pairs', (∀ k, ofKey k pairs' = ofKey k pairs) →
        ∀ s, read p pairs' = .ok s ↔ read p pairs = .ok s) ∧
      ∀ s, read p pairs = .ok s → ∀ k,
        (∀ t, read p (ofKey k pairs) = .ok t → s.parameters.get? k = t.parameters.get? k) ∧
          Leaves p (current (ofKey k pairs)) (s.parameters.get? k) := by
  refine ⟨⟨fun ⟨s, hs⟩ k => ?_, fun h => ?_⟩, fun pairs' hpairs s => ?_, fun s hs k => ?_⟩
  · obtain ⟨t, ht, -⟩ := exists_read_ofKey hs k
    exact ⟨t, ht⟩
  · refine exists_setAll_of_places fun k => ?_
    obtain ⟨t, ht⟩ := h k
    exact ⟨_, congrArg (Except.map _) ht⟩
  · rw [read_eq_ok_iff, read_eq_ok_iff]
    exact forall_congr' fun k => by rw [hpairs k]
  · obtain ⟨t, ht, hst⟩ := exists_read_ofKey hs k
    refine ⟨fun t' ht' => ?_, leaves_of_read hs k⟩
    cases ht.symm.trans ht'
    exact hst

/-- Names in different cases, a value that is taken back, one that is given twice and one that is not
declared, all mixed up. -/
def mixedPairs : List (String × String) :=
  [("Pol ", "V"), ("MAXREC", "5"), ("POL", " "), ("pol", "I"), ("Flavor", "a"), ("maxrec", "7"),
    ("POL", "Q ")]

/-- The same with the pairs of one name together. -/
def groupedPairs : List (String × String) :=
  [("Flavor", "a"), ("Pol ", "V"), ("POL", " "), ("pol", "I"), ("POL", "Q "), ("MAXREC", "5"),
    ("maxrec", "7")]

theorem ofKey_groupedPairs (k : String) : ofKey k groupedPairs = ofKey k mixedPairs := by
  by_cases hpol : "pol" = k
  · subst hpol
    decide +kernel
  by_cases hmaxrec : "maxrec" = k
  · subst hmaxrec
    decide +kernel
  have hkeys : key "Pol " = "pol" ∧ key "POL" = "pol" ∧ key "pol" = "pol" ∧ key "MAXREC" = "maxrec" ∧
      key "maxrec" = "maxrec" := by decide +kernel
  obtain ⟨h₁, h₂, h₃, h₄, h₅⟩ := hkeys
  simp [ofKey, groupedPairs, mixedPairs, List.filter_cons, h₁, h₂, h₃, h₄, h₅, hpol, hmaxrec]

theorem read_by_keys_of_mixedPairs :
    ∃ s list, read .image mixedPairs = .ok s ∧ read .image groupedPairs = .ok s ∧
      RangeList.read "I,Q".toList (some .text) false = .ok list ∧
      s.parameters.get? "pol" = some ⟨"POL", .core, "I,Q", .ranges list⟩ ∧
      s.parameters.get? "maxrec" = some ⟨"MAXREC", .core, "7", .integer 7⟩ ∧
      s.parameters.get? "flavor" = some ⟨"Flavor", .client, "a", .text "a"⟩ := by
  have hread : ((read .image mixedPairs).toOption.any fun _ => true) = true := by decide +kernel
  obtain ⟨s, hs, -⟩ := exists_ok_of_any hread
  obtain ⟨-, horder, hplaces⟩ := read_by_keys .image mixedPairs
  have hpairs : current (ofKey "pol" mixedPairs) = [("pol", "I"), ("POL", "Q ")] ∧
      current (ofKey "maxrec" mixedPairs) = [("MAXREC", "5"), ("maxrec", "7")] ∧
      current (ofKey "flavor" mixedPairs) = [("Flavor", "a")] := by decide +kernel
  obtain ⟨hpol, hmaxrec, hflavor⟩ := hpairs
  have hranges := (hplaces s hs "pol").2.ranges
  have hinteger := (hplaces s hs "maxrec").2.last
  have htext := (hplaces s hs "flavor").2.last
  rw [hpol] at hranges
  rw [hmaxrec] at hinteger
  rw [hflavor] at htext
  obtain ⟨list, hlist, hstates⟩ := hranges _ _ (some .text) false rfl rfl rfl (by decide)
  obtain ⟨v, hv, hlimit⟩ := hinteger _ _ rfl rfl (fun _ _ h => by cases h)
  obtain ⟨w, hw, hclient⟩ := htext _ _ rfl rfl (fun _ _ h => by cases h)
  cases hv
  cases hw
  exact ⟨s, list, hs, (horder _ ofKey_groupedPairs s).2 hs, hlist, hstates, hlimit, hclient⟩

end

end SkyDiscovery.ParameterSet
