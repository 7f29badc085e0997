import SkyDiscovery.Proofs.Failure
import SkyDiscovery.Proofs.Range.Endpoint
import SkyDiscovery.Proofs.Range.Order

/-!
# Range lists that were read

Reading adds one range after the other, and each range is read by the type that the list has by
then.  What this leaves behind is `RangeList.Readable`: the endpoints are such as reading gives, the
ranges of an ordered list are sorted and of one type, and a list of dates holds nothing else.

* `type?_add`: adding a range gives a list a type only if it has none.
* `readable_of_readRange`: an element is read as a range that fits the list.
* `Readable.push`: adding a fitting range keeps a list readable.
* `Readable.addElements`: so does adding elements.
-/

namespace SkyDiscovery

open Text Calendar

/-! ## Ranges -/

namespace Range

def endpoints : Range → List Endpoint
  | any => []
  | single v => [v]
  | atLeast low => [low]
  | atMost high => [high]
  | closed low high => [low, high]

theorem mem_endpoints_iff {r : Range} {x : Endpoint} :
    x ∈ r.endpoints ↔ r.low? = some x ∨ r.high? = some x := by
  cases r <;> simp [endpoints, low?, high?, eq_comm]

/-- The endpoints are of one type. -/
def Uniform (r : Range) : Prop :=
  ∀ x ∈ r.endpoints, ∀ y ∈ r.endpoints, x.type = y.type

theorem type?_of_mem {r : Range} (h : r.Uniform) {x : Endpoint} (hx : x ∈ r.endpoints) :
    r.type? = some x.type := by
  cases r with
  | any => cases hx
  | single v => rw [List.mem_singleton.1 hx]; rfl
  | atLeast low => rw [List.mem_singleton.1 hx]; rfl
  | atMost high => rw [List.mem_singleton.1 hx]; rfl
  | closed low high => rw [h x hx low List.mem_cons_self]; rfl

theorem type?_eq_none {r : Range} : r.type? = none ↔ r.endpoints = [] := by
  cases r <;> simp [type?, value?, low?, high?, endpoints]

theorem mem_endpoints_normalize {r : Range} {x : Endpoint} :
    x ∈ r.normalize.endpoints ↔ x ∈ r.endpoints := by
  cases r with
  | closed low high =>
    rw [normalize]
    split
    · simp only [endpoints, List.mem_cons, List.not_mem_nil, or_false]
      exact Or.comm
    · rfl
  | any => rfl
  | single v => rfl
  | atLeast low => rfl
  | atMost high => rfl

theorem Uniform.normalize {r : Range} (h : r.Uniform) : r.normalize.Uniform :=
  fun x hx y hy => h x (mem_endpoints_normalize.1 hx) y (mem_endpoints_normalize.1 hy)

theorem type?_normalize {r : Range} (h : r.Uniform) : r.normalize.type? = r.type? := by
  cases hr : r.normalize.endpoints with
  | nil =>
    have hnil : r.endpoints = [] := by
      refine List.eq_nil_iff_forall_not_mem.2 fun x hx => ?_
      have hmem := mem_endpoints_normalize.2 hx
      rw [hr] at hmem
      cases hmem
    rw [type?_eq_none.2 hr, type?_eq_none.2 hnil]
  | cons x xs =>
    have hx : x ∈ r.normalize.endpoints := by
      rw [hr]
      exact List.mem_cons_self
    rw [type?_of_mem h.normalize hx, type?_of_mem h (mem_endpoints_normalize.1 hx)]

/-- What is known of a range that was read under a declaration. -/
inductive Readable (declared : Option ValueType) : Range → Prop where
  | word {s : String} : declared = some .text → IsItem isListMark s.toList →
      Readable declared (single (.text s))
  | bounds {r : Range} : declared ≠ some .text → r.Uniform →
      (∀ x ∈ r.endpoints, x.Readable declared) → Readable declared r

theorem Readable.uniform {declared : Option ValueType} {r : Range} (h : r.Readable declared) :
    r.Uniform := by
  cases h with
  | word _ _ =>
    intro x hx y hy
    rw [List.mem_singleton.1 hx, List.mem_singleton.1 hy]
  | bounds _ huniform _ => exact huniform

theorem Readable.normalize {declared : Option ValueType} {r : Range} (h : r.Readable declared) :
    r.normalize.Readable declared := by
  cases h with
  | word hdeclared hitem => exact .word hdeclared hitem
  | bounds hdeclared huniform hreadable =>
    exact .bounds hdeclared huniform.normalize
      fun x hx => hreadable x (mem_endpoints_normalize.1 hx)

end Range

namespace RangeList

/-! ## Adding a range -/

/-- The range in the form in which a list takes it. -/
def entry (s : RangeList) (r : Range) : Range :=
  if s.ordered then r.normalize else r

/-- The list takes the range: it is not ordered, or not of another type. -/
def Takes (s : RangeList) (r : Range) : Prop :=
  s.ordered = true → ∀ t u, r.type? = some t → s.type? = some u → t = u

/-- The ranges of an ordered list are of the type of the list. -/
def Coherent (s : RangeList) : Prop :=
  s.ordered = true → ∀ r ∈ s.ranges, ∀ t, r.type? = some t → s.type? = some t

theorem push_eq_ok {s t : RangeList} {r : Range} :
    s.push r = .ok t ↔ s.Takes r ∧ s.add r = t := by
  unfold push Takes
  cases hr : r.type? with
  | none => simp
  | some a =>
    cases hs : s.type? with
    | none => simp
    | some b =>
      by_cases hmixed : s.ordered = true ∧ a ≠ b
      · simp [hmixed]
      · have hsame : s.ordered = true → a = b := by
          intro hordered
          by_contra hne
          exact hmixed ⟨hordered, hne⟩
        simp only [if_neg hmixed, Except.ok.injEq, Option.some.injEq]
        constructor
        · rintro rfl
          refine ⟨?_, rfl⟩
          rintro hordered t u rfl rfl
          exact hsame hordered
        · exact fun h => h.2

theorem mem_add {s : RangeList} {r x : Range} :
    x ∈ (s.add r).ranges ↔ x = s.entry r ∨ x ∈ s.ranges := by
  unfold add entry
  split
  · rw [(place_perm _ _).mem_iff, List.mem_cons]
  · rw [List.mem_append, List.mem_singleton]
    exact Or.comm

theorem mem_endpoints_entry {s : RangeList} {r : Range} {x : Endpoint} :
    x ∈ (s.entry r).endpoints ↔ x ∈ r.endpoints := by
  unfold entry
  split
  · exact Range.mem_endpoints_normalize
  · rfl

theorem readable_entry (s : RangeList) {declared : Option ValueType} {r : Range}
    (h : r.Readable declared) : (s.entry r).Readable declared := by
  unfold entry
  split
  · exact h.normalize
  · exact h

theorem type?_entry (s : RangeList) {r : Range} (h : r.Uniform) : (s.entry r).type? = r.type? := by
  unfold entry
  split
  · exact Range.type?_normalize h
  · rfl

/-- Ranges of one type give a list this type. -/
theorem findSome?_type? {rs : List Range} {u : Option ValueType}
    (hall : ∀ x ∈ rs, x.type? = none ∨ x.type? = u) (hex : ∃ x ∈ rs, x.type? = u) :
    rs.findSome? Range.type? = u := by
  cases hfind : rs.findSome? Range.type? with
  | none =>
    obtain ⟨x, hx, rfl⟩ := hex
    exact (List.findSome?_eq_none_iff.1 hfind x hx).symm
  | some t =>
    obtain ⟨x, hx, hxt⟩ := List.exists_of_findSome?_eq_some hfind
    rcases hall x hx with h | h
    · rw [h] at hxt
      cases hxt
    · rw [← hxt, h]

theorem type?_eq_none {s : RangeList} :
    s.type? = none ↔ s.declared = none ∧ ∀ r ∈ s.ranges, r.type? = none := by
  rw [type?, Option.or_eq_none_iff, List.findSome?_eq_none_iff]

/-- A range gives its type to a list that has none. -/
theorem type?_add {s : RangeList} {r : Range} (hs : s.Coherent) (hr : r.Uniform)
    (htakes : s.Takes r) : (s.add r).type? = s.type?.or r.type? := by
  have hadd : (s.add r).type? = s.declared.or ((s.add r).ranges.findSome? Range.type?) := rfl
  cases hdeclared : s.declared with
  | some d => rw [hadd, type?, hdeclared, Option.some_or, Option.some_or, Option.some_or]
  | none =>
    have htype : s.type? = s.ranges.findSome? Range.type? := by
      rw [type?, hdeclared, Option.none_or]
    rw [hadd, hdeclared, Option.none_or]
    cases hordered : s.ordered with
    | false =>
      rw [add, hordered, if_neg (by decide), List.findSome?_append, List.findSome?_singleton, htype]
    | true =>
      refine findSome?_type? (fun x hx => ?_) ?_
      · rcases mem_add.1 hx with rfl | hx
        · rw [s.type?_entry hr]
          cases hr : r.type? with
          | none => exact Or.inl rfl
          | some t =>
            cases hu : s.type? with
            | none => exact Or.inr rfl
            | some u =>
              rw [htakes hordered t u hr hu]
              exact Or.inr rfl
        · cases hx' : x.type? with
          | none => exact Or.inl rfl
          | some t =>
            rw [hs hordered x hx t hx']
            exact Or.inr rfl
      · cases hu : s.type? with
        | none => exact ⟨s.entry r, mem_add.2 (Or.inl rfl), s.type?_entry hr⟩
        | some u =>
          rw [htype] at hu
          obtain ⟨x, hx, hxu⟩ := List.exists_of_findSome?_eq_some hu
          exact ⟨x, mem_add.2 (Or.inr hx), hxu⟩

theorem coherent_add {s : RangeList} {r : Range} (hs : s.Coherent) (hr : r.Uniform)
    (htakes : s.Takes r) : (s.add r).Coherent := by
  intro hordered x hx t hxt
  rw [type?_add hs hr htakes]
  rcases mem_add.1 hx with rfl | hx
  · rw [s.type?_entry hr] at hxt
    cases hu : s.type? with
    | none => rw [Option.none_or, hxt]
    | some u => rw [Option.some_or, htakes hordered t u hxt hu]
  · rw [hs hordered x hx t hxt, Option.some_or]

/-! ## Readable lists -/

/-- The range holds dates only. -/
def HoldsDates (r : Range) : Prop :=
  ∀ x ∈ r.endpoints, x.type = .date

/-- What reading leaves behind. -/
structure Readable (s : RangeList) : Prop where
  ranges : ∀ r ∈ s.ranges, r.Readable s.declared
  coherent : s.Coherent
  dates : s.type? = some .date → ∀ r ∈ s.ranges, HoldsDates r
  normal : s.ordered = true → ∀ r ∈ s.ranges, r.normalize = r
  sorted : s.ordered = true → Sorted s.ranges

theorem readable_empty (declared : Option ValueType) (ordered : Bool) :
    (empty declared ordered).Readable where
  ranges _ hr := nomatch hr
  coherent _ _ hr := nomatch hr
  dates _ _ hr := nomatch hr
  normal _ _ hr := nomatch hr
  sorted _ := List.Pairwise.nil

/-- A list that holds dates only takes in dates only, and so does one without a type. -/
theorem Readable.holdsDates_add {s : RangeList} (hs : s.Readable) {r : Range}
    (hr : r.Readable s.declared) (htakes : s.Takes r)
    (hdates : s.type? = some .date → HoldsDates r) (hdate : (s.add r).type? = some .date) :
    ∀ x ∈ (s.add r).ranges, HoldsDates x := by
  intro x hx
  rw [type?_add hs.coherent hr.uniform htakes] at hdate
  cases hu : s.type? with
  | none =>
    rw [hu, Option.none_or] at hdate
    rcases mem_add.1 hx with rfl | hx
    · intro y hy
      have htype := Range.type?_of_mem hr.uniform (mem_endpoints_entry.1 hy)
      rw [hdate] at htype
      exact (Option.some.inj htype).symm
    · -- the ranges before the first date are without bounds
      intro y hy
      rw [Range.type?_eq_none.1 ((type?_eq_none.1 hu).2 x hx)] at hy
      cases hy
  | some u =>
    rw [hu, Option.some_or] at hdate
    rcases mem_add.1 hx with rfl | hx
    · exact fun y hy => hdates (hu.trans hdate) y (mem_endpoints_entry.1 hy)
    · exact hs.dates (hu.trans hdate) x hx

/-- A range that fits a list keeps it readable. -/
theorem Readable.push {s t : RangeList} (hs : s.Readable) {r : Range} (hr : r.Readable s.declared)
    (hdates : s.type? = some .date → HoldsDates r) (h : s.push r = .ok t) : t.Readable := by
  obtain ⟨htakes, rfl⟩ := push_eq_ok.1 h
  refine ⟨fun x hx => ?_, coherent_add hs.coherent hr.uniform htakes,
    hs.holdsDates_add hr htakes hdates, fun hordered x hx => ?_, fun hordered => ?_⟩
  · rcases mem_add.1 hx with rfl | hx
    · exact s.readable_entry hr
    · exact hs.ranges x hx
  · have hordered : s.ordered = true := hordered
    rcases mem_add.1 hx with rfl | hx
    · rw [entry, if_pos hordered, Range.normalize_normalize]
    · exact hs.normal hordered x hx
  · have hranges : (s.add r).ranges = place r.normalize s.ranges := if_pos hordered
    rw [hranges]
    exact sorted_place (hs.sorted hordered) _

/-! ## Reading an element -/

theorem type_of_readEndpoint {token : List Char} {x : Endpoint}
    (h : readEndpoint true token = .ok x) : x.type = .date := by
  rw [readEndpoint, if_pos rfl] at h
  split at h
  · cases h
    rfl
  · cases h

/-- Tokens are read as dates only where the declaration allows dates. -/
theorem of_readsDates {s : RangeList} {first : List Char} {second : Option (List Char)}
    (h : s.readsDates first second = true) : s.declared ≠ some .numeric := by
  intro hdeclared
  simp [readsDates, type?, hdeclared] at h

theorem of_not_readsDates {s : RangeList} {first : List Char} {second : Option (List Char)}
    (h : s.readsDates first second = false) :
    s.type? ≠ some .date ∧ s.declared ≠ some .date ∧
      (s.declared = none → looksLikeDate first = false ∧ second.any looksLikeDate = false) := by
  simp only [readsDates, Bool.or_eq_false_iff, beq_eq_false_iff_ne, Bool.and_eq_false_iff] at h
  refine ⟨h.1, fun hdeclared => h.1 ?_, fun hdeclared => ?_⟩
  · rw [type?, hdeclared, Option.some_or]
  · rcases h.2 with h | h
    · rw [hdeclared] at h
      cases h
    · exact h

theorem readable_of_token {s : RangeList} {first : List Char} {second : Option (List Char)}
    {token : List Char} (hmem : token = first ∨ some token = second)
    (htoken : IsItem isRangeMark token) {x : Endpoint}
    (h : readEndpoint (s.readsDates first second) token = .ok x) :
    x.Readable s.declared ∧ (s.type? = some .date → x.type = .date) := by
  refine ⟨Endpoint.readable_of_readEndpoint h htoken of_readsDates fun hother => ?_,
    fun hdate => ?_⟩
  · obtain ⟨-, hdeclared, hlooks⟩ := of_not_readsDates hother
    refine ⟨hdeclared, fun hnone => ?_⟩
    rcases hmem with rfl | rfl
    · exact (hlooks hnone).1
    · exact (hlooks hnone).2
  · have hasDate : s.readsDates first second = true := by
      rw [readsDates, hdate]
      rfl
    rw [hasDate] at h
    exact type_of_readEndpoint h

/-- A part of an element between slashes is a token, or empty. -/
theorem isItem_of_mem_splitOn {e a : List Char} (he : IsItem isListMark e)
    (ha : a ∈ splitOn (· == '/') e) (hne : trim a ≠ []) : IsItem isRangeMark (trim a) := by
  refine ⟨isPart_trim fun c hc => ?_, hne⟩
  obtain ⟨hmem, hslash⟩ := mem_splitOn ha c hc
  rw [isRangeMark, he.no_stop c hmem, hslash]
  rfl

theorem between_eq_ok {low high : Endpoint} {r : Range} :
    Range.between low high = .ok r ↔ low.type = high.type ∧ Range.closed low high = r := by
  unfold Range.between
  split <;> simp [*]

/-- A range fits a list if its endpoints do. -/
theorem readable_of_endpoints {s : RangeList} {r : Range} (htext : s.declared ≠ some .text)
    (huniform : r.Uniform)
    (h : ∀ x ∈ r.endpoints, x.Readable s.declared ∧ (s.type? = some .date → x.type = .date)) :
    r.Readable s.declared ∧ (s.type? = some .date → HoldsDates r) :=
  ⟨.bounds htext huniform fun x hx => (h x hx).1, fun hdate x hx => (h x hx).2 hdate⟩

/-- A range with one endpoint fits the list that its token was read in. -/
theorem readable_of_one {s : RangeList} {first : List Char} {second : Option (List Char)}
    {token : List Char} {x : Endpoint} {r : Range} (hr : r.endpoints = [x])
    (htext : s.declared ≠ some .text) (hmem : token = first ∨ some token = second)
    (htoken : IsItem isRangeMark token)
    (h : readEndpoint (s.readsDates first second) token = .ok x) :
    r.Readable s.declared ∧ (s.type? = some .date → HoldsDates r) := by
  refine readable_of_endpoints htext ?_ ?_
  · rw [Range.Uniform, hr]
    intro y hy z hz
    rw [List.mem_singleton.1 hy, List.mem_singleton.1 hz]
  · rw [hr]
    intro y hy
    rw [List.mem_singleton.1 hy]
    exact readable_of_token hmem htoken h

/-- The parts of an element are read as a range that fits the list. -/
theorem readable_of_readParts {s : RangeList} {e : List Char} (he : IsItem isListMark e)
    (htext : s.declared ≠ some .text) {r : Range}
    (h : s.readParts e (splitOn (· == '/') e) = .ok r) :
    r.Readable s.declared ∧ (s.type? = some .date → HoldsDates r) := by
  have htoken : ∀ a ∈ splitOn (· == '/') e, trim a ≠ [] → IsItem isRangeMark (trim a) :=
    fun a ha hne => isItem_of_mem_splitOn he ha hne
  unfold readParts at h
  split at h
  · next a hsplit =>
    have hne : trim a ≠ [] := by
      rw [eq_of_splitOn hsplit, he.trimmed]
      exact he.ne_nil
    obtain ⟨x, hx, hr⟩ := exists_of_bind h
    cases hr
    exact readable_of_one rfl htext (Or.inl rfl) (htoken a (by simp [hsplit]) hne) hx
  · next a b hsplit =>
    have hfirst := htoken a (by simp [hsplit])
    have hsecond := htoken b (by simp [hsplit])
    dsimp only at h
    split at h
    · cases h
      exact readable_of_endpoints htext (by simp [Range.Uniform, Range.endpoints])
        (by simp [Range.endpoints])
    · next ha hb =>
      obtain ⟨x, hx, hr⟩ := exists_of_bind h
      cases hr
      exact readable_of_one rfl htext (Or.inl rfl) (hfirst (by simpa using ha)) hx
    · next ha hb =>
      obtain ⟨x, hx, hr⟩ := exists_of_bind h
      cases hr
      exact readable_of_one rfl htext (Or.inr rfl) (hsecond (by simpa using hb)) hx
    · next ha hb =>
      obtain ⟨x, hx, h⟩ := exists_of_bind h
      obtain ⟨y, hy, h⟩ := exists_of_bind h
      obtain ⟨htype, rfl⟩ := between_eq_ok.1 h
      refine readable_of_endpoints htext (by simp [Range.Uniform, Range.endpoints, htype])
        fun z hz => ?_
      rcases List.mem_cons.1 hz with rfl | hz
      · exact readable_of_token (Or.inl rfl) (hfirst (by simpa using ha)) hx
      · rw [List.mem_singleton.1 hz]
        exact readable_of_token (Or.inr rfl) (hsecond (by simpa using hb)) hy
  · cases h

/-- An element is read as a range that fits the list. -/
theorem readable_of_readRange {s : RangeList} {e : List Char} (he : IsItem isListMark e)
    {r : Range} (h : s.readRange e = .ok r) :
    r.Readable s.declared ∧ (s.type? = some .date → HoldsDates r) := by
  unfold readRange at h
  by_cases htext : s.declared = some .text
  · rw [if_pos htext] at h
    cases h
    refine ⟨.word htext (by rwa [String.toList_ofList]), fun hdate => ?_⟩
    rw [type?, htext] at hdate
    cases hdate
  · rw [if_neg htext] at h
    exact readable_of_readParts he htext h

/-! ## Reading elements -/

theorem addElements_cons_eq_ok {s t : RangeList} {e : List Char} {es : List (List Char)} {n : Nat}
    (h : s.addElements (e :: es) = (t, .ok n)) :
    ∃ r u m, s.readRange e = .ok r ∧ s.push r = .ok u ∧ u.addElements es = (t, .ok m) := by
  unfold addElements at h
  split at h
  · cases h
  · next u hu =>
    obtain ⟨r, hr, hpush⟩ := exists_of_bind hu
    cases hrest : u.addElements es with
    | mk v result =>
      rw [hrest] at h
      cases result with
      | error f => cases h
      | ok m =>
        cases h
        exact ⟨r, u, m, hr, hpush, hrest⟩

/-- Elements that are read keep a list readable. -/
theorem Readable.addElements {s t : RangeList} {es : List (List Char)}
    (hes : ∀ e ∈ es, IsItem isListMark e) (hs : s.Readable) {n : Nat}
    (h : s.addElements es = (t, .ok n)) :
    t.Readable ∧ t.ordered = s.ordered ∧ t.declared = s.declared ∧ t.properties = s.properties := by
  induction es generalizing s n with
  | nil =>
    cases h
    exact ⟨hs, rfl, rfl, rfl⟩
  | cons e es ih =>
    obtain ⟨r, u, m, hr, hpush, hrest⟩ := addElements_cons_eq_ok h
    obtain ⟨hreadable, hdates⟩ := readable_of_readRange (hes e List.mem_cons_self) hr
    have hu := hs.push hreadable hdates hpush
    obtain ⟨ht, hordered, hdeclared, hproperties⟩ :=
      ih (fun e he => hes e (List.mem_cons_of_mem _ he)) hu hrest
    obtain ⟨-, rfl⟩ := push_eq_ok.1 hpush
    exact ⟨ht, hordered, hdeclared, hproperties⟩

/-- An ordered list holds endpoints of its declared type only. -/
theorem Readable.type_of_mem {s : RangeList} (hs : s.Readable) (hordered : s.ordered = true)
    {type : ValueType} (hdeclared : s.declared = some type) {r : Range} (hr : r ∈ s.ranges)
    {x : Endpoint} (hx : x ∈ r.endpoints) : x.type = type := by
  have htype := hs.coherent hordered r hr x.type (Range.type?_of_mem (hs.ranges r hr).uniform hx)
  rw [RangeList.type?, hdeclared, Option.some_or] at htype
  exact (Option.some.inj htype).symm

end RangeList

end SkyDiscovery
