import SkyDiscovery.Proofs.Range.RoundTrip

/-!
# Range lists read in pieces

Reading goes on where it ended: a list takes a text with a comma in it as it takes the piece before
the comma and then the piece behind.  Where reading fails, the list has taken the items before the
fault, and no others.

* `extend_append`: a text without properties, and then another one.
* `extend_in_pieces`: the list, the fault and the count that come of it.
* `stops_of_extend_eq_error`: what a list has taken of a text with a fault.
-/

namespace SkyDiscovery.RangeList

open Text

/-- Goes on reading where a first piece ended; the counts add up. -/
def goOn (first : RangeList × Except RangeFault Nat)
    (next : RangeList → RangeList × Except RangeFault Nat) : RangeList × Except RangeFault Nat :=
  match first with
  | (t, .error f) => (t, .error f)
  | (t, .ok n) => ((next t).1, (next t).2.map (n + ·))

/-- Takes items by a step, up to the first fault. -/
def takeItems (step : RangeList → List Char → Except RangeFault RangeList) (s : RangeList) :
    List (List Char) → RangeList × Except RangeFault Nat
  | [] => (s, .ok 0)
  | i :: is =>
    match step s i with
    | .error f => (s, .error f)
    | .ok t => goOn (t, .ok 1) (takeItems step · is)

theorem goOn_zero (s : RangeList) (next : RangeList → RangeList × Except RangeFault Nat) :
    goOn (s, .ok 0) next = next s := by
  show ((next s).1, (next s).2.map (0 + ·)) = next s
  rcases next s with ⟨t, f | n⟩
  · rfl
  · exact congrArg (fun m => (t, Except.ok m)) (Nat.zero_add n)

theorem goOn_goOn (first : RangeList × Except RangeFault Nat)
    (second third : RangeList → RangeList × Except RangeFault Nat) :
    goOn (goOn first second) third = goOn first fun t => goOn (second t) third := by
  unfold goOn
  rcases first with ⟨t, f | n⟩
  · rfl
  · dsimp only
    rcases second t with ⟨u, f | m⟩
    · rfl
    · dsimp only [Except.map]
      rcases (third u).2 with f | k
      · rfl
      · exact congrArg (fun m => ((third u).1, Except.ok m)) (Nat.add_assoc n m k)

theorem goOn_eq_ok {first : RangeList × Except RangeFault Nat}
    {next : RangeList → RangeList × Except RangeFault Nat} {t : RangeList} {n : Nat}
    (h : goOn first next = (t, .ok n)) :
    ∃ u a b, first = (u, .ok a) ∧ next u = (t, .ok b) := by
  rcases first with ⟨u, f | a⟩
  · cases h
  · rcases hnext : next u with ⟨v, f | b⟩
    · rw [goOn, hnext] at h
      cases h
    · rw [goOn, hnext] at h
      cases h
      exact ⟨u, a, b, rfl, hnext⟩

/-! ## Items taken one after the other -/

section

variable {step : RangeList → List Char → Except RangeFault RangeList} {s t : RangeList}

theorem takeItems_append (s : RangeList) (is js : List (List Char)) :
    takeItems step s (is ++ js) = goOn (takeItems step s is) (takeItems step · js) := by
  induction is generalizing s with
  | nil => exact (goOn_zero s (takeItems step · js)).symm
  | cons i is ih =>
    rw [List.cons_append, takeItems, takeItems]
    split
    · rfl
    · simp only [ih, goOn_goOn]

/-- Items with a fault are taken up to the first fault. -/
theorem exists_of_takeItems_eq_error {is : List (List Char)} {f : RangeFault}
    (h : takeItems step s is = (t, .error f)) :
    ∃ before i after, is = before ++ i :: after ∧
      takeItems step s before = (t, .ok before.length) ∧ step t i = .error f := by
  induction is generalizing s with
  | nil => cases h
  | cons i is ih =>
    rw [takeItems] at h
    split at h
    · next hi =>
      cases h
      exact ⟨[], i, is, rfl, rfl, hi⟩
    · next u hu =>
      rcases hrest : takeItems step u is with ⟨v, g | n⟩
      · rw [goOn, hrest] at h
        cases h
        obtain ⟨before, j, after, rfl, htaken, hj⟩ := ih hrest
        refine ⟨i :: before, j, after, rfl, ?_, hj⟩
        rw [takeItems, hu]
        simp only [goOn, htaken, Except.map, List.length_cons, Nat.add_comm]
      · rw [goOn, hrest] at h
        cases h

theorem addElements_eq_takeItems (s : RangeList) (es : List (List Char)) :
    s.addElements es = takeItems (fun s e => s.readRange e >>= s.push) s es := by
  induction es generalizing s with
  | nil => rfl
  | cons e es ih =>
    rw [addElements, takeItems]
    rcases s.readRange e >>= s.push with f | t
    · rfl
    · dsimp only
      rw [ih t]
      simp only [goOn, Nat.add_comm]

theorem addProperties_eq_takeItems (s : RangeList) (is : List (List Char)) :
    s.addProperties is = takeItems addProperty s is := by
  induction is generalizing s with
  | nil => rfl
  | cons i is ih =>
    rw [addProperties, takeItems]
    rcases s.addProperty i with f | t
    · rfl
    · dsimp only
      rw [ih t]
      simp only [goOn, Nat.add_comm]

end

/-! ## Texts -/

/-- The elements and the properties of a text. -/
def partsOf (cs : List Char) : List (List Char) × List (List Char) :=
  match cut ';' cs with
  | none => (elementsOf cs, [])
  | some (ranges, properties) => (elementsOf ranges, propertiesOf properties)

theorem isItem_of_mem_partsOf {cs : List Char} :
    (∀ e ∈ (partsOf cs).1, IsItem isListMark e) ∧ ∀ i ∈ (partsOf cs).2, IsItem isListMark i := by
  unfold partsOf
  cases hcut : cut ';' cs with
  | none =>
    have hcs := not_mem_of_cut_eq_none hcut
    exact ⟨fun e he => isListMark_of_mem_elementsOf he hcs, List.forall_mem_nil _⟩
  | some parts =>
    exact ⟨fun e he => isListMark_of_mem_elementsOf he (cut_eq_some hcut).2,
      fun i hi => isItem_of_mem_items hi⟩

theorem extend_eq_addParts (s : RangeList) (cs : List Char) :
    s.extend cs = s.addParts (partsOf cs).1 (partsOf cs).2 := by
  cases hcut : cut ';' cs with
  | none =>
    rw [extend_of_not_mem (not_mem_of_cut_eq_none hcut), partsOf, hcut]
  | some parts =>
    rw [extend_of_cut hcut, partsOf, hcut]

/-- A text is read if its elements and then its properties are. -/
theorem read_eq_ok_iff_parts {cs : List Char} {declared : Option ValueType} {ordered : Bool}
    {s : RangeList} :
    read cs declared ordered = .ok s ↔
      ∃ t, (∃ n, (empty declared ordered).addElements (partsOf cs).1 = (t, .ok n)) ∧
        ∃ m, t.addProperties (partsOf cs).2 = (s, .ok m) := by
  constructor
  · intro h
    obtain ⟨n, hextend⟩ := exists_of_read h
    rw [extend_eq_addParts] at hextend
    obtain ⟨t, a, b, ha, hb⟩ := addParts_eq_ok hextend
    exact ⟨t, ⟨a, ha⟩, b, hb⟩
  · rintro ⟨t, ⟨a, ha⟩, b, hb⟩
    rw [read, extend_eq_addParts, addParts_of_ok ha hb]

theorem addParts_eq_goOn (s : RangeList) (es is : List (List Char)) :
    s.addParts es is = goOn (s.addElements es) (·.addProperties is) := by
  rw [addParts]
  rcases s.addElements es with ⟨t, f | n⟩
  · rfl
  · rfl

theorem partsOf_append {a : List Char} (ha : ';' ∉ a) (b : List Char) :
    partsOf (a ++ ',' :: b) = (elementsOf a ++ (partsOf b).1, (partsOf b).2) := by
  have hcut : cut ';' (a ++ ',' :: b) =
      (cut ';' b).map (Prod.map (a ++ ',' :: ·) id) := by
    rw [cut_append_of_not_mem ha, cut, if_neg (by decide), Option.map_map]
    rfl
  rw [partsOf, partsOf, hcut]
  cases cut ';' b with
  | none => exact congrArg (·, []) (items_append_cons a rfl b)
  | some parts => exact congrArg (·, propertiesOf parts.2) (items_append_cons a rfl parts.1)

/-- A text without properties is taken first, and then the other text. -/
theorem extend_append {a : List Char} (ha : ';' ∉ a) (s : RangeList) (b : List Char) :
    s.extend (a ++ ',' :: b) = goOn (s.extend a) (·.extend b) := by
  have hfirst : s.extend a = s.addElements (elementsOf a) := by
    rw [extend, cut_of_not_mem ha]
  simp only [extend_eq_addParts _ (a ++ ',' :: b), partsOf_append ha, hfirst, extend_eq_addParts _ b,
    addParts_eq_goOn, addElements_eq_takeItems, takeItems_append, goOn_goOn]

theorem read_append {a : List Char} (ha : ';' ∉ a) {declared : Option ValueType} {ordered : Bool}
    {s t : RangeList} (hs : read a declared ordered = .ok s) {b : List Char} {n : Nat}
    (ht : s.extend b = (t, .ok n)) : read (a ++ ',' :: b) declared ordered = .ok t := by
  rw [read] at hs ⊢
  rw [extend_append ha]
  split at hs
  · next m hfirst =>
    cases hs
    rw [hfirst, goOn, ht]
    rfl
  · cases hs

/-- A text is read as its two pieces one after the other: it fails where the first piece does or
else the second, and leaves the same list; if both are read, their items add up. -/
theorem extend_in_pieces {a : List Char} (ha : ';' ∉ a) (s : RangeList) (b : List Char) :
    (∀ t f, s.extend a = (t, .error f) → s.extend (a ++ ',' :: b) = (t, .error f)) ∧
    ∀ t n, s.extend a = (t, .ok n) →
      (∀ u f, t.extend b = (u, .error f) → s.extend (a ++ ',' :: b) = (u, .error f)) ∧
      ∀ u m, t.extend b = (u, .ok m) → s.extend (a ++ ',' :: b) = (u, .ok (n + m)) := by
  have hwhole := extend_append ha s b
  refine ⟨fun t f hfirst => ?_, fun t n hfirst => ⟨fun u f hsecond => ?_, fun u m hsecond => ?_⟩⟩
  · rw [hwhole, hfirst]
    rfl
  · rw [hwhole, hfirst, goOn, hsecond]
    rfl
  · rw [hwhole, hfirst, goOn, hsecond]
    rfl

/-- The first piece makes a list one of dates; the second piece is read as dates, up to a fault or to
its end. -/
theorem extend_in_pieces_of_dates :
    (empty none true).extend "2001-01-01/,/2000-01,7".toList =
      (⟨true, none, [.atMost (.date ⟨946684800, 0⟩), .atLeast (.date ⟨978307200, 0⟩)], []⟩,
        .error (.invalidDate "7")) ∧
    (empty none true).extend "2001-01-01/,/2000-01;source".toList =
      (⟨true, none, [.atMost (.date ⟨946684800, 0⟩), .atLeast (.date ⟨978307200, 0⟩)],
        [("source", "true")]⟩, .ok 3) := by
  have hfirst : (empty none true).extend "2001-01-01/".toList =
      (⟨true, none, [.atLeast (.date ⟨978307200, 0⟩)], []⟩, .ok 1) := by decide +kernel
  have hpieces := fun b =>
    (extend_in_pieces (a := "2001-01-01/".toList) (by decide) (empty none true) b).2 _ _ hfirst
  exact ⟨(hpieces "/2000-01,7".toList).1 _ _ (by decide +kernel),
    (hpieces "/2000-01;source".toList).2 _ 2 (by decide +kernel)⟩

/-! ## Faults -/

/-- The list `t` is what `s` has become when reading a text stopped at a fault: it has taken the
elements before the one at fault, or all elements and the properties before the one at fault. -/
inductive Stops (s : RangeList) (cs : List Char) (t : RangeList) (f : RangeFault) : Prop
  | atElement (before : List (List Char)) (e : List Char) (after : List (List Char))
      (parts : (partsOf cs).1 = before ++ e :: after)
      (taken : s.addElements before = (t, .ok before.length))
      (fault : t.readRange e >>= t.push = .error f)
  | atProperty (u : RangeList) (n : Nat) (before : List (List Char)) (i : List Char)
      (after : List (List Char))
      (elements : s.addElements (partsOf cs).1 = (u, .ok n))
      (parts : (partsOf cs).2 = before ++ i :: after)
      (taken : u.addProperties before = (t, .ok before.length))
      (fault : t.addProperty i = .error f)

theorem stops_of_extend_eq_error {s t : RangeList} {cs : List Char} {f : RangeFault}
    (h : s.extend cs = (t, .error f)) : s.Stops cs t f := by
  rw [extend_eq_addParts, addParts_eq_goOn] at h
  rcases helements : s.addElements (partsOf cs).1 with ⟨u, g | n⟩
  · rw [helements] at h
    cases h
    rw [addElements_eq_takeItems] at helements
    obtain ⟨before, e, after, hparts, htaken, hfault⟩ := exists_of_takeItems_eq_error helements
    exact .atElement before e after hparts (by rwa [addElements_eq_takeItems]) hfault
  · rw [helements, goOn, addProperties_eq_takeItems] at h
    rcases hproperties : takeItems addProperty u (partsOf cs).2 with ⟨v, g | m⟩
    · rw [hproperties] at h
      cases h
      obtain ⟨before, i, after, hparts, htaken, hfault⟩ := exists_of_takeItems_eq_error hproperties
      exact .atProperty u n before i after helements hparts (by rwa [addProperties_eq_takeItems])
        hfault
    · rw [hproperties] at h
      cases h

end SkyDiscovery.RangeList
