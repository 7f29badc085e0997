import SkyDiscovery.Proofs.Range.Echo
import SkyDiscovery.Proofs.Range.Property

/-!
# Range lists read from their own text

A list that was read is written, and the text is read again under the same declaration.  The second
reading follows the first: it takes up one range after the other, and by then it has a type, and the
type of dates, only if the first list has.

* `read_write`: a list that can be written without loss is read back.
* `printable_of_read_write`: a list read from a written one can be written without loss.
* `exists_read_write_iff`: a list equal to the first is read back just if nothing is lost.
-/

namespace SkyDiscovery.RangeList

open Text Calendar

/-- Every number of the list is finite, and every date is one of the years 0 to 9999 and has a whole
number of milliseconds. -/
def Printable (s : RangeList) : Prop :=
  ∀ r ∈ s.ranges, r.Printable

instance : DecidablePred Printable :=
  fun s => inferInstanceAs (Decidable (∀ r ∈ s.ranges, r.Printable))

/-! ## Lists that were read -/

theorem isListMark_of_mem_elementsOf {cs e : List Char} (h : e ∈ elementsOf cs)
    (hcs : ';' ∉ cs) : IsItem isListMark e := by
  have hitem : IsItem (· == ',') e := isItem_of_mem_items h
  refine ⟨⟨hitem.trimmed, fun c hc => ?_⟩, hitem.ne_nil⟩
  have hsemicolon : c ≠ ';' := by
    rintro rfl
    exact hcs (mem_of_mem_items h hc)
  rw [isListMark, hitem.no_stop c hc, Bool.false_or, beq_eq_false_iff_ne]
  exact hsemicolon

/-- Adds elements and then properties. -/
def addParts (s : RangeList) (es is : List (List Char)) : RangeList × Except RangeFault Nat :=
  match s.addElements es with
  | (t, .error f) => (t, .error f)
  | (t, .ok n) =>
    let (u, m) := t.addProperties is
    (u, m.map (n + ·))

theorem extend_of_cut {cs ranges properties : List Char}
    (h : cut ';' cs = some (ranges, properties)) (s : RangeList) :
    s.extend cs = s.addParts (elementsOf ranges) (propertiesOf properties) := by
  rw [extend, h]
  rfl

theorem extend_of_not_mem {cs : List Char} (h : ';' ∉ cs) (s : RangeList) :
    s.extend cs = s.addParts (elementsOf cs) [] := by
  rw [extend, cut_of_not_mem h, addParts]
  cases s.addElements (elementsOf cs) with
  | mk t result =>
    cases result with
    | error f => rfl
    | ok n => rfl

theorem addParts_of_ok {s t u : RangeList} {es is : List (List Char)} {a b : Nat}
    (ht : s.addElements es = (t, .ok a)) (hu : t.addProperties is = (u, .ok b)) :
    s.addParts es is = (u, .ok (a + b)) := by
  rw [addParts, ht]
  dsimp only
  rw [hu]
  rfl

theorem addParts_eq_ok {s u : RangeList} {es is : List (List Char)} {n : Nat}
    (h : s.addParts es is = (u, .ok n)) :
    ∃ t a b, s.addElements es = (t, .ok a) ∧ t.addProperties is = (u, .ok b) := by
  unfold addParts at h
  split at h
  · cases h
  · next t a ht =>
    cases hu : t.addProperties is with
    | mk v result =>
      rw [hu] at h
      cases result with
      | error f => cases h
      | ok b =>
        cases h
        exact ⟨t, a, b, ht, hu⟩

/-- A text is read as elements and then properties. -/
theorem exists_of_read {cs : List Char} {declared : Option ValueType} {ordered : Bool}
    {s : RangeList} (h : read cs declared ordered = .ok s) :
    ∃ n, (empty declared ordered).extend cs = (s, .ok n) := by
  unfold read at h
  split at h
  · next t n hextend =>
    cases h
    exact ⟨n, hextend⟩
  · cases h

/-- A text that is read keeps a list readable. -/
theorem Readable.extend {s t : RangeList} (hs : s.Readable)
    (hproperties : ReadableProperties s.properties) {cs : List Char} {n : Nat}
    (h : s.extend cs = (t, .ok n)) :
    t.Readable ∧ t.ordered = s.ordered ∧ t.declared = s.declared ∧
      ReadableProperties t.properties := by
  obtain ⟨es, is, hes, his, hparts⟩ : ∃ es is, (∀ e ∈ es, IsItem isListMark e) ∧
      (∀ i ∈ is, IsItem isListMark i) ∧ s.addParts es is = (t, .ok n) := by
    cases hcut : cut ';' cs with
    | none =>
      have hno := not_mem_of_cut_eq_none hcut
      rw [extend_of_not_mem hno] at h
      exact ⟨_, _, fun e he => isListMark_of_mem_elementsOf he hno, List.forall_mem_nil _, h⟩
    | some parts =>
      obtain ⟨ranges, properties⟩ := parts
      rw [extend_of_cut hcut] at h
      exact ⟨_, _, fun e he => isListMark_of_mem_elementsOf he (cut_eq_some hcut).2,
        fun i hi => isItem_of_mem_items hi, h⟩
  obtain ⟨u, a, b, hes', his'⟩ := addParts_eq_ok hparts
  obtain ⟨hu, hordered, hdeclared, hkept⟩ := hs.addElements hes hes'
  obtain ⟨hread, ht⟩ := (hkept ▸ hproperties : ReadableProperties u.properties).addProperties his his'
  rw [ht]
  exact ⟨⟨hu.ranges, hu.coherent, hu.dates, hu.normal, hu.sorted⟩, hordered, hdeclared, hread⟩

/-- What reading a text leaves behind. -/
theorem readable_of_read {cs : List Char} {declared : Option ValueType} {ordered : Bool}
    {s : RangeList} (h : read cs declared ordered = .ok s) :
    s.Readable ∧ s.ordered = ordered ∧ s.declared = declared ∧ ReadableProperties s.properties := by
  obtain ⟨n, hextend⟩ := exists_of_read h
  exact (readable_empty declared ordered).extend ⟨List.nodup_nil, fun p hp => nomatch hp⟩ hextend

/-! ## The text of a list -/

theorem isItem_of_mem_ranges {s : RangeList} (hs : s.Readable) :
    ∀ e ∈ s.ranges.map Range.write, IsItem isListMark e := by
  intro e he
  obtain ⟨r, hr, rfl⟩ := List.mem_map.1 he
  exact Range.isItem_write (hs.ranges r hr)

theorem isItem_of_mem_properties {ps : List (String × String)} (h : ReadableProperties ps) :
    ∀ i ∈ ps.map writeProperty, IsItem isListMark i := by
  intro i hi
  obtain ⟨p, hp, rfl⟩ := List.mem_map.1 hi
  exact isItem_writeProperty (h.entries p hp)

/-- The text of a list is cut into the texts of its ranges and of its properties. -/
theorem extend_write {s : RangeList} (hs : s.Readable)
    (hproperties : ReadableProperties s.properties) (u : RangeList) :
    u.extend s.write = u.addParts (s.ranges.map Range.write) (s.properties.map writeProperty) := by
  have hranges := isItem_of_mem_ranges hs
  have helements : elementsOf ([','].intercalate (s.ranges.map Range.write)) =
      s.ranges.map Range.write :=
    items_intercalate (by decide) fun e he => (hranges e he).mono fun c hc => by
      rw [isListMark, hc, Bool.true_or]
  have hsemicolon : ';' ∉ [','].intercalate (s.ranges.map Range.write) := by
    refine not_mem_intercalate (by decide) fun e he hmem => ?_
    have hmark := (hranges e he).no_stop ';' hmem
    exact absurd hmark (by decide)
  cases hps : s.properties with
  | nil =>
    have hwrite : s.write = [','].intercalate (s.ranges.map Range.write) := by
      rw [write, hps]
      exact List.append_nil _
    rw [hwrite, extend_of_not_mem hsemicolon, helements]
    rfl
  | cons p ps =>
    have hwrite : s.write = [','].intercalate (s.ranges.map Range.write) ++
        ';' :: [','].intercalate ((p :: ps).map writeProperty) := by
      rw [write, hps]
      rfl
    have hitems : propertiesOf ([','].intercalate ((p :: ps).map writeProperty)) =
        (p :: ps).map writeProperty :=
      items_intercalate (by decide) (isItem_of_mem_properties (hps ▸ hproperties))
    rw [hwrite, extend_of_cut (cut_append hsemicolon _), helements, hitems]

/-! ## Reading a list that loses nothing -/

theorem addElements_cons {s t u : RangeList} {e : List Char} {r : Range} {es : List (List Char)}
    {n : Nat} (hr : s.readRange e = .ok r) (ht : s.push r = .ok t)
    (hu : t.addElements es = (u, .ok n)) : s.addElements (e :: es) = (u, .ok (n + 1)) := by
  have hbind : s.readRange e >>= s.push = .ok t := by
    rw [hr]
    exact ht
  rw [addElements, hbind]
  dsimp only
  rw [hu]
  rfl

/-- The type that the first ranges give a list is the type of the list. -/
theorem type?_of_append {s u : RangeList} {rest : List Range} (hdeclared : u.declared = s.declared)
    (hranges : s.ranges = u.ranges ++ rest) {t : ValueType} (h : u.type? = some t) :
    s.type? = some t := by
  rw [type?, Option.or_eq_some_iff, hdeclared] at h
  rw [type?, hranges, List.findSome?_append, Option.or_eq_some_iff]
  rcases h with h | ⟨hnone, h⟩
  · exact Or.inl h
  · exact Or.inr ⟨hnone, by rw [h, Option.some_or]⟩

/-- The written ranges are read back in order. -/
theorem addElements_write {s : RangeList} (hs : s.Readable) (hprint : s.Printable)
    (rest : List Range) {u : RangeList} (hordered : u.ordered = s.ordered)
    (hdeclared : u.declared = s.declared) (hranges : s.ranges = u.ranges ++ rest) :
    u.addElements (rest.map Range.write) = ({ u with ranges := s.ranges }, .ok rest.length) := by
  induction rest generalizing u with
  | nil =>
    rw [hranges, List.append_nil]
    rfl
  | cons r rest ih =>
    have hr : r ∈ s.ranges := by
      rw [hranges]
      exact List.mem_append_right _ List.mem_cons_self
    have hreadable : r.Readable u.declared := by
      rw [hdeclared]
      exact hs.ranges r hr
    have hdates : u.type? = some .date → HoldsDates r :=
      fun h => hs.dates (type?_of_append hdeclared hranges h) r hr
    have htakes : u.Takes r := by
      intro huordered t v ht hv
      have hsv := type?_of_append hdeclared hranges hv
      rw [hs.coherent (hordered ▸ huordered) r hr t ht] at hsv
      exact Option.some.inj hsv
    have hadd : u.add r = { u with ranges := u.ranges ++ [r] } := by
      unfold add
      split
      · next huordered =>
        have hsordered : s.ordered = true := hordered ▸ huordered
        have hsorted := hs.sorted hsordered
        rw [hranges] at hsorted
        have hbefore : ∀ x ∈ u.ranges, x.NotAfter r :=
          fun x hx => (List.pairwise_append.1 hsorted).2.2 x hx r List.mem_cons_self
        rw [hs.normal hsordered r hr, place_eq_append hbefore]
      · rfl
    have hpush : u.push r = .ok { u with ranges := u.ranges ++ [r] } :=
      push_eq_ok.2 ⟨htakes, hadd⟩
    have hrest :=
      @ih { u with ranges := u.ranges ++ [r] } hordered hdeclared (by simpa using hranges)
    exact addElements_cons (readRange_write hreadable hdates (hprint r hr)) hpush hrest

/-- A list that can be written without loss is read back. -/
theorem read_write {cs : List Char} {declared : Option ValueType} {ordered : Bool} {s : RangeList}
    (h : read cs declared ordered = .ok s) (hprint : s.Printable) :
    read s.write declared ordered = .ok s := by
  obtain ⟨hs, rfl, rfl, hproperties⟩ := readable_of_read h
  have helements := @addElements_write s hs hprint s.ranges (empty s.declared s.ordered) rfl rfl rfl
  have hitems := @addProperties_write ⟨s.ordered, s.declared, s.ranges, []⟩ s.properties hproperties
  rw [read, extend_write hs hproperties, addParts_of_ok helements hitems]
  rfl

/-! ## Following a list -/

/-- The list `u` has been read from the written ranges `done` of `s`. -/
structure Follows (s u : RangeList) (done : List Range) : Prop where
  ordered : u.ordered = s.ordered
  declared : u.declared = s.declared
  coherent : u.Coherent
  printable : u.Printable
  untyped : u.type? = none → ∀ r ∈ done, r.type? = none
  dates : u.type? = some .date → s.type? = some .date

/-- The list goes on following as it adds what it reads from the next range. -/
theorem Follows.add {s u : RangeList} {done rest : List Range} {r x : Range}
    (h : Follows s u done) (hs : s.Readable) (hranges : s.ranges = done ++ r :: rest)
    (hread : u.readRange r.write = .ok x) (htakes : u.Takes x) :
    Follows s (u.add x) (done ++ [r]) := by
  have hr : r ∈ s.ranges := by
    rw [hranges]
    exact List.mem_append_right _ List.mem_cons_self
  have hreadable : r.Readable u.declared := by
    rw [h.declared]
    exact hs.ranges r hr
  obtain ⟨hprint, huniform, huntyped, hdates⟩ :=
    of_readRange_write hreadable (fun hdate => hs.dates (h.dates hdate) r hr) hread
  have htype := type?_add h.coherent huniform htakes
  refine ⟨h.ordered, h.declared, coherent_add h.coherent huniform htakes, fun y hy => ?_,
    fun hnone y hy => ?_, fun hdate => ?_⟩
  · rcases mem_add.1 hy with rfl | hy
    · exact fun z hz => hprint z (mem_endpoints_entry.1 hz)
    · exact h.printable y hy
  · rw [htype, Option.or_eq_none_iff] at hnone
    rcases List.mem_append.1 hy with hy | hy
    · exact h.untyped hnone.1 y hy
    · rw [List.mem_singleton.1 hy]
      exact huntyped hnone.2
  · rw [htype, Option.or_eq_some_iff] at hdate
    rcases hdate with hdate | ⟨hnone, hdate⟩
    · exact h.dates hdate
    · -- no range before this one has a type, in either list
      have hdone : done.findSome? Range.type? = none :=
        List.findSome?_eq_none_iff.2 (h.untyped hnone)
      have hdeclared : s.declared = none := h.declared ▸ (type?_eq_none.1 hnone).1
      rw [type?, hdeclared, hranges, List.findSome?_append, hdone, Option.none_or, Option.none_or,
        List.findSome?_cons, hdates hdate]

theorem Follows.addElements {s u t : RangeList} {done rest : List Range} (h : Follows s u done)
    (hs : s.Readable) (hranges : s.ranges = done ++ rest) {n : Nat}
    (hread : u.addElements (rest.map Range.write) = (t, .ok n)) : t.Printable := by
  induction rest generalizing u done n with
  | nil =>
    cases hread
    exact h.printable
  | cons r rest ih =>
    obtain ⟨x, v, m, hx, hpush, hrest⟩ := addElements_cons_eq_ok hread
    obtain ⟨htakes, rfl⟩ := push_eq_ok.1 hpush
    exact ih (h.add hs hranges hx htakes) (by simpa using hranges) hrest

/-- Whatever is read from a written list can be written without loss. -/
theorem printable_of_read_write {cs : List Char} {declared : Option ValueType} {ordered : Bool}
    {s t : RangeList} (h : read cs declared ordered = .ok s)
    (ht : read s.write declared ordered = .ok t) : t.Printable := by
  obtain ⟨hs, rfl, rfl, hproperties⟩ := readable_of_read h
  obtain ⟨n, hextend⟩ := exists_of_read ht
  rw [extend_write hs hproperties] at hextend
  obtain ⟨v, a, b, helements, hitems⟩ := addParts_eq_ok hextend
  have hempty := readable_empty s.declared s.ordered
  have hstart : Follows s (empty s.declared s.ordered) [] := by
    refine ⟨rfl, rfl, hempty.coherent, List.forall_mem_nil _, fun _ => List.forall_mem_nil _,
      fun hdate => ?_⟩
    rw [type?, Option.or_eq_some_iff]
    exact Or.inl (by simpa [type?, empty] using hdate)
  have hv : v.Printable := hstart.addElements hs rfl helements
  obtain ⟨-, -, -, hnone⟩ := hempty.addElements (isItem_of_mem_ranges hs) helements
  have hnone : ReadableProperties v.properties := by
    rw [hnone]
    exact ⟨List.nodup_nil, List.forall_mem_nil _⟩
  obtain ⟨-, ht⟩ := hnone.addProperties (isItem_of_mem_properties hproperties) hitems
  rw [ht]
  exact hv

/-! ## Equal lists -/

theorem printable_of_same {s t : RangeList} (h : s.same t = true) (ht : t.Printable) :
    s.Printable := by
  simp only [same, Bool.and_eq_true, beq_iff_eq, List.all_eq_true] at h
  obtain ⟨⟨⟨⟨-, -⟩, hlength⟩, hall⟩, -⟩ := h
  intro r hr
  obtain ⟨i, hi, rfl⟩ := List.getElem_of_mem hr
  have hi' : i < t.ranges.length := hlength ▸ hi
  have hzip : i < (s.ranges.zip t.ranges).length := by
    rw [List.length_zip]
    omega
  have hpair := List.getElem_mem hzip
  rw [List.getElem_zip] at hpair
  exact Range.printable_of_same (hall _ hpair) (ht _ (List.getElem_mem hi'))

theorem same_self {s : RangeList} (h : s.Printable) : s.same s = true := by
  unfold same
  simp only [beq_self_eq_true, Bool.true_and, Bool.and_true, List.all_eq_true]
  intro p hp
  obtain ⟨i, hi, rfl⟩ := List.getElem_of_mem hp
  rw [List.getElem_zip]
  exact Range.same_self (h _ (List.getElem_mem _))

/-- A list equal to the first is read from its text just if the list can be written without loss. -/
theorem exists_read_write_iff {cs : List Char} {declared : Option ValueType} {ordered : Bool}
    {s : RangeList} (h : read cs declared ordered = .ok s) :
    (∃ t, read s.write declared ordered = .ok t ∧ s.same t = true) ↔ s.Printable := by
  constructor
  · rintro ⟨t, ht, hsame⟩
    exact printable_of_same hsame (printable_of_read_write h ht)
  · intro hprint
    exact ⟨s, read_write h hprint, same_self hprint⟩

/-- Bounds in the wrong order and a property without a value are read back as they were put right,
and a date with half a millisecond is not read back. -/
theorem exists_read_write_iff_of_half_millisecond :
    (∃ s, read "9/1,/2;a,b=c".toList none true = .ok s ∧
      s.write = "/2,1/9;a=true,b=c".toList ∧
      ∃ t, read s.write none true = .ok t ∧ s.same t = true) ∧
    (∃ s, read "2000-01-01T00:00:00.0005Z".toList none true = .ok s ∧
      s.write = "2000-01-01T00:00:00Z".toList ∧
      ¬ ∃ t, read s.write none true = .ok t ∧ s.same t = true) := by
  have hbounds : read "9/1,/2;a,b=c".toList none true = .ok ⟨true, none,
      [.atMost (.number ⟨0x4000000000000000⟩),
        .closed (.number ⟨0x3FF0000000000000⟩) (.number ⟨0x4022000000000000⟩)],
      [("a", "true"), ("b", "c")]⟩ := by decide +kernel
  have hdate : read "2000-01-01T00:00:00.0005Z".toList none true =
      .ok ⟨true, none, [.single (.date ⟨946684800, 500000⟩)], []⟩ := by decide
  refine ⟨⟨_, hbounds, by decide +kernel, ?_⟩, ⟨_, hdate, by decide +kernel, ?_⟩⟩
  · exact (exists_read_write_iff hbounds).2 (by decide +kernel)
  · exact (exists_read_write_iff hdate).not.2 (by decide +kernel)

end SkyDiscovery.RangeList
