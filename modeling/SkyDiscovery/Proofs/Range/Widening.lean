import SkyDiscovery.Proofs.Range.Pieces

/-!
# Range lists with further ranges

A text with a further range is read as a list that holds all the ranges of the text without it,
wherever an ordered list places the new one.

* `partsOf_trim`: the blanks around a text do not matter to its ranges.
* `Widens`: the ways to add to a text of ranges.
* `mem_ranges_of_widens`: no range is lost by it.
-/

namespace SkyDiscovery.RangeList

open Text

theorem not_mem_of_blank {mark : Char} (hmark : isBlank mark = false) {cs : List Char}
    (h : ∀ c ∈ cs, isBlank c = true) : mark ∉ cs := by
  intro hmem
  rw [h mark hmem] at hmark
  cases hmark

theorem not_comma_of_blank (c : Char) (h : isBlank c = true) : (c == ',') = false := by
  rw [beq_eq_false_iff_ne]
  rintro rfl
  exact absurd h (by decide)

theorem partsOf_of_not_mem {cs : List Char} (h : ';' ∉ cs) : partsOf cs = (elementsOf cs, []) := by
  rw [partsOf, cut_of_not_mem h]

theorem partsOf_cut {ranges : List Char} (h : ';' ∉ ranges) (properties : List Char) :
    partsOf (ranges ++ ';' :: properties) = (elementsOf ranges, propertiesOf properties) := by
  rw [partsOf, cut_append h]

theorem partsOf_trim (cs : List Char) : (partsOf (trim cs)).1 = (partsOf cs).1 := by
  obtain ⟨front, back, hcs, hfront, hback⟩ := exists_blanks_around cs
  have hfront' : ';' ∉ front := not_mem_of_blank (by decide) hfront
  have hback' : ';' ∉ back := not_mem_of_blank (by decide) hback
  cases hcut : cut ';' (trim cs) with
  | none =>
    have htrim := not_mem_of_cut_eq_none hcut
    have hmem : ';' ∉ cs := by
      rw [hcs, List.mem_append, List.mem_append]
      exact not_or_intro hfront' (not_or_intro htrim hback')
    rw [partsOf_of_not_mem htrim, partsOf_of_not_mem hmem]
    exact items_trim not_comma_of_blank cs
  | some parts =>
    obtain ⟨htrim, hranges⟩ := cut_eq_some hcut
    have hwhole : cs = (front ++ parts.1) ++ ';' :: (parts.2 ++ back) := by
      conv_lhs => rw [hcs, htrim]
      simp
    have hbefore : ';' ∉ front ++ parts.1 := by
      rw [List.mem_append]
      exact not_or_intro hfront' hranges
    conv_rhs => rw [hwhole, partsOf_cut hbefore]
    rw [htrim, partsOf_cut hranges]
    exact (items_blank_append not_comma_of_blank hfront parts.1).symm

/-! ## Adding to a text -/

/-- The second text is the first with a comma and more behind it, or before its properties. -/
inductive Widens : List Char → List Char → Prop
  | behind (cs more : List Char) : Widens cs (cs ++ ',' :: more)
  | within (ranges more properties : List Char) : ';' ∉ ranges →
      Widens (ranges ++ ';' :: properties) (ranges ++ ',' :: (more ++ ';' :: properties))

theorem Widens.exists_partsOf {cs ds : List Char} (h : Widens cs ds) :
    ∃ more, (partsOf ds).1 = (partsOf cs).1 ++ more := by
  cases h with
  | behind _ more =>
    cases hcut : cut ';' cs with
    | none =>
      have hcs := not_mem_of_cut_eq_none hcut
      exact ⟨(partsOf more).1, by rw [partsOf_append hcs, partsOf_of_not_mem hcs]⟩
    | some parts =>
      obtain ⟨hcs, hranges⟩ := cut_eq_some hcut
      refine ⟨[], ?_⟩
      rw [hcs, List.append_assoc, List.cons_append, partsOf_cut hranges, partsOf_cut hranges,
        List.append_nil]
  | within ranges more properties hranges =>
    exact ⟨_, by rw [partsOf_append hranges, partsOf_cut hranges]⟩

/-- A text with more in it is not blank. -/
theorem Widens.trim_ne_nil {cs ds : List Char} (h : Widens cs ds) : trim ds ≠ [] := by
  have hcomma : ',' ∈ ds := by
    cases h with
    | behind => simp
    | within => simp
  obtain ⟨front, back, hds, hfront, hback⟩ := exists_blanks_around ds
  intro hnil
  rw [hds, hnil, List.nil_append, List.mem_append] at hcomma
  rcases hcomma with hmem | hmem
  · exact not_mem_of_blank (by decide) hfront hmem
  · exact not_mem_of_blank (by decide) hback hmem

/-! ## Ranges that are kept -/

theorem mem_ranges_of_addElements {s t : RangeList} {es : List (List Char)} {n : Nat}
    (h : s.addElements es = (t, .ok n)) {x : Range} (hx : x ∈ s.ranges) : x ∈ t.ranges := by
  induction es generalizing s n with
  | nil =>
    cases h
    exact hx
  | cons e es ih =>
    obtain ⟨r, u, m, -, hpush, hrest⟩ := addElements_cons_eq_ok h
    obtain ⟨-, rfl⟩ := push_eq_ok.1 hpush
    exact ih hrest (mem_add.2 (.inr hx))

/-- The ranges of a text are those of its elements. -/
theorem exists_addElements_of_read {cs : List Char} {declared : Option ValueType} {ordered : Bool}
    {s : RangeList} (h : read cs declared ordered = .ok s) :
    ∃ t n, (empty declared ordered).addElements (partsOf cs).1 = (t, .ok n) ∧
      s.ranges = t.ranges := by
  obtain ⟨t, ⟨n, helements⟩, m, hproperties⟩ := read_eq_ok_iff_parts.1 h
  have hset := t.addProperties_fst (@isItem_of_mem_partsOf cs).2
  have hranges := congrArg RangeList.ranges hset
  rw [hproperties, setProperties_eq] at hranges
  exact ⟨t, n, helements, hranges⟩

theorem mem_ranges_of_widens {cs ds : List Char} (h : Widens cs ds)
    {declared : Option ValueType} {ordered : Bool} {s t : RangeList}
    (hs : read (trim cs) declared ordered = .ok s) (ht : read (trim ds) declared ordered = .ok t) :
    ∀ x ∈ s.ranges, x ∈ t.ranges := by
  intro x hx
  obtain ⟨more, hmore⟩ := h.exists_partsOf
  obtain ⟨u, n, hfirst, hu⟩ := exists_addElements_of_read hs
  obtain ⟨v, m, hall, hv⟩ := exists_addElements_of_read ht
  rw [partsOf_trim] at hfirst hall
  rw [hmore] at hall
  rw [addElements_eq_takeItems, takeItems_append] at hall
  obtain ⟨w, a, b, hsame, hrest⟩ := goOn_eq_ok hall
  rw [← addElements_eq_takeItems] at hsame hrest
  cases hfirst.symm.trans hsame
  rw [hv]
  rw [hu] at hx
  exact mem_ranges_of_addElements hrest hx

end SkyDiscovery.RangeList
