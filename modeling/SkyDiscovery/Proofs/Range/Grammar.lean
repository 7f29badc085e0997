import SkyDiscovery.Proofs.Range.Pieces
import SkyDiscovery.Proofs.Range.Sort

/-!
# The grammar of range lists

Under a declared type each element of a text is read by itself, whatever stands before it.  The
grammar says which endpoint a token stands for and which range an element does; a text is read just
if each of its elements stands for a range and each of its properties has a name.

* `denotesRange_iff`: an element is read, and its range taken, by the grammar.
* `exists_addElements_eq_ok_iff`: so are the elements one after the other.
* `read_by_grammar`: the texts that are read under a declared type, and the lists that they give.
-/

namespace SkyDiscovery

open Text

namespace Range

/-- The range between two bounds, each of which may be missing. -/
def ofBounds : Option Endpoint → Option Endpoint → Range
  | none, none => any
  | some low, none => atLeast low
  | none, some high => atMost high
  | some low, some high => closed low high

end Range

namespace RangeList

/-! ## The grammar -/

/-- The token is a number, of which one sign at least is a digit. -/
def IsNumeral (w : List Char) (x : Binary64) : Prop :=
  (∃ c ∈ w, c.isDigit) ∧ Binary64.read w = some x

/-- The endpoint that a token stands for.  Among numbers only an unordered list takes texts. -/
inductive DenotesEndpoint (ordered : Bool) : ValueType → List Char → Endpoint → Prop where
  | date {w : List Char} {t : Calendar.Instant} :
      Calendar.readDate w = some t → DenotesEndpoint ordered .date w (.date t)
  | number {w : List Char} {x : Binary64} :
      IsNumeral w x → DenotesEndpoint ordered .numeric w (.number x)
  | word {w : List Char} : ordered = false → (∀ x, ¬ IsNumeral w x) →
      DenotesEndpoint ordered .numeric w (.text (String.ofList w))

/-- The bound that one side of a slash stands for; a blank side is open. -/
inductive DenotesBound (type : ValueType) (ordered : Bool) :
    List Char → Option Endpoint → Prop where
  | missing {side : List Char} : trim side = [] → DenotesBound type ordered side none
  | present {side : List Char} {x : Endpoint} : trim side ≠ [] →
      DenotesEndpoint ordered type (trim side) x → DenotesBound type ordered side (some x)

/-- The range that an element stands for.  A slash separates bounds, unless texts are declared; two
bounds are of one type. -/
inductive DenotesRange (ordered : Bool) : ValueType → List Char → Range → Prop where
  | word (e : List Char) : DenotesRange ordered .text e (.single (.text (String.ofList e)))
  | single {type : ValueType} {e : List Char} {x : Endpoint} : '/' ∉ e →
      DenotesEndpoint ordered type e x → DenotesRange ordered type e (.single x)
  | bounds {type : ValueType} {a b : List Char} {low high : Option Endpoint} : type ≠ .text →
      '/' ∉ a → '/' ∉ b → DenotesBound type ordered a low → DenotesBound type ordered b high →
      (∀ x ∈ low, ∀ y ∈ high, x.type = y.type) →
      DenotesRange ordered type (a ++ '/' :: b) (.ofBounds low high)

/-! ## Reading tokens and sides of a slash -/

theorem infer_of_isNumeral {w : List Char} {x : Binary64} (h : IsNumeral w x) :
    Endpoint.infer w = .number x := by
  rw [Endpoint.infer, if_pos (List.any_eq_true.2 h.1), h.2]

theorem infer_of_not_isNumeral {w : List Char} (h : ∀ x, ¬ IsNumeral w x) :
    Endpoint.infer w = .text (String.ofList w) := by
  unfold Endpoint.infer
  split
  · next hdigit =>
    cases hread : Binary64.read w with
    | none => rfl
    | some x => exact absurd ⟨List.any_eq_true.1 hdigit, hread⟩ (h x)
  · rfl

/-- Reads the bound on one side of a slash. -/
def readBound (asDate : Bool) (side : List Char) : Except RangeFault (Option Endpoint) :=
  if trim side = [] then .ok none else some <$> readEndpoint asDate (trim side)

/-- The range between two bounds, those of a closed range being of one type. -/
def between? : Option Endpoint → Option Endpoint → Except RangeFault Range
  | some low, some high => Range.between low high
  | low, high => .ok (.ofBounds low high)

theorem readParts_sides (s : RangeList) (e a b : List Char) :
    s.readParts e [a, b] =
      readBound (s.readsDates (trim a) (some (trim b))) a >>= fun low =>
        readBound (s.readsDates (trim a) (some (trim b))) b >>= between? low := by
  rw [readParts, readBound, readBound]
  generalize s.readsDates (trim a) (some (trim b)) = asDate
  split
  · next ha hb =>
    rw [if_pos (List.isEmpty_iff.1 ha), if_pos (List.isEmpty_iff.1 hb)]
    rfl
  · next ha hb =>
    rw [if_neg (by simpa using ha), if_pos (List.isEmpty_iff.1 hb)]
    cases readEndpoint asDate (trim a) <;> rfl
  · next ha hb =>
    rw [if_pos (List.isEmpty_iff.1 ha), if_neg (by simpa using hb)]
    cases readEndpoint asDate (trim b) <;> rfl
  · next ha hb =>
    rw [if_neg (by simpa using ha), if_neg (by simpa using hb)]
    cases readEndpoint asDate (trim a) with
    | error f => rfl
    | ok x => cases readEndpoint asDate (trim b) <;> rfl

theorem between?_eq_ok_iff {low high : Option Endpoint} {r : Range} :
    between? low high = .ok r ↔
      (∀ x ∈ low, ∀ y ∈ high, x.type = y.type) ∧ Range.ofBounds low high = r := by
  cases low with
  | none => cases high <;> simp [between?]
  | some x =>
    cases high with
    | none => simp [between?]
    | some y => simp [between?, between_eq_ok, Range.ofBounds]

/-! ## Reading under a declared type -/

section Declared

variable {s : RangeList} {type : ValueType}

theorem type?_of_declared (hs : s.declared = some type) : s.type? = some type := by
  rw [RangeList.type?, hs, Option.some_or]

theorem readsDates_of_declared (hs : s.declared = some type) (first : List Char)
    (second : Option (List Char)) : s.readsDates first second = (type == .date) := by
  rw [readsDates, type?_of_declared hs, hs]
  cases type <;> rfl

theorem takes_iff_of_declared (hs : s.declared = some type) (r : Range) :
    s.Takes r ↔ (s.ordered = true → ∀ t, r.type? = some t → t = type) := by
  simp [Takes, type?_of_declared hs]

theorem denotesEndpoint_date_iff {ordered : Bool} {w : List Char} {x : Endpoint} :
    DenotesEndpoint ordered .date w x ↔ readEndpoint true w = .ok x := by
  rw [readEndpoint, if_pos rfl]
  cases hread : Calendar.readDate w with
  | none =>
    refine iff_of_false (fun h => ?_) fun h => by cases h
    cases h with
    | date h =>
      rw [hread] at h
      cases h
  | some t =>
    constructor
    · rintro ⟨h⟩
      rw [hread] at h
      cases h
      rfl
    · intro h
      cases h
      exact .date hread

theorem denotesEndpoint_numeric_iff {ordered : Bool} {w : List Char} {x : Endpoint} :
    DenotesEndpoint ordered .numeric w x ↔
      readEndpoint false w = .ok x ∧ (ordered = true → x.type = .numeric) := by
  rw [readEndpoint, if_neg (by decide), Except.ok.injEq]
  by_cases hnumber : ∃ y, IsNumeral w y
  · obtain ⟨y, hy⟩ := hnumber
    rw [infer_of_isNumeral hy]
    constructor
    · rintro (_ | hx | ⟨-, hnone⟩)
      · rw [Option.some.inj (hx.2.symm.trans hy.2)]
        exact ⟨rfl, fun _ => rfl⟩
      · exact absurd hy (hnone y)
    · rintro ⟨rfl, -⟩
      exact .number hy
  · rw [not_exists] at hnumber
    rw [infer_of_not_isNumeral hnumber]
    constructor
    · rintro (_ | hx | ⟨hordered, -⟩)
      · exact absurd hx (hnumber _)
      · exact ⟨rfl, fun h => by rw [hordered] at h; cases h⟩
    · rintro ⟨rfl, hordered⟩
      refine .word ?_ hnumber
      rw [Bool.eq_false_iff]
      exact fun h => by cases hordered h

theorem denotesEndpoint_iff (htype : type ≠ .text) {ordered : Bool} {w : List Char}
    {x : Endpoint} :
    DenotesEndpoint ordered type w x ↔
      readEndpoint (type == .date) w = .ok x ∧ (ordered = true → x.type = type) := by
  cases type with
  | text => exact absurd rfl htype
  | numeric => exact denotesEndpoint_numeric_iff
  | date =>
    rw [denotesEndpoint_date_iff]
    exact ⟨fun h => ⟨h, fun _ => type_of_readEndpoint h⟩, And.left⟩

theorem denotesBound_iff (htype : type ≠ .text) {ordered : Bool} {side : List Char}
    {bound : Option Endpoint} :
    DenotesBound type ordered side bound ↔
      readBound (type == .date) side = .ok bound ∧
        (ordered = true → ∀ x ∈ bound, x.type = type) := by
  unfold readBound
  by_cases hside : trim side = []
  · rw [if_pos hside]
    constructor
    · rintro (_ | ⟨hne, -⟩)
      · exact ⟨rfl, fun _ => nofun⟩
      · exact absurd hside hne
    · rintro ⟨h, -⟩
      cases h
      exact .missing hside
  · rw [if_neg hside]
    cases bound with
    | none =>
      refine iff_of_false (fun h => ?_) fun h => ?_
      · cases h
        exact hside ‹_›
      · cases hread : readEndpoint (type == .date) (trim side) with
        | error f => rw [hread] at h; cases h.1
        | ok x => rw [hread] at h; cases h.1
    | some x =>
      have hpresent : DenotesBound type ordered side (some x) ↔
          DenotesEndpoint ordered type (trim side) x :=
        ⟨fun h => by cases h; assumption, .present hside⟩
      rw [hpresent, denotesEndpoint_iff htype]
      cases readEndpoint (type == .date) (trim side) <;> simp

/-! ## Elements -/

theorem denotesRange_text_iff {ordered : Bool} {e : List Char} {r : Range} :
    DenotesRange ordered .text e r ↔ r = .single (.text (String.ofList e)) := by
  constructor
  · rintro (_ | ⟨-, hx⟩ | ⟨htype, -⟩)
    · rfl
    · cases hx
    · exact absurd rfl htype
  · rintro rfl
    exact .word e

theorem denotesRange_iff_of_no_slash (htype : type ≠ .text) {ordered : Bool} {e : List Char}
    (he : '/' ∉ e) {r : Range} :
    DenotesRange ordered type e r ↔ ∃ x, DenotesEndpoint ordered type e x ∧ .single x = r := by
  constructor
  · rintro (_ | ⟨-, hx⟩ | ⟨-, -, -, -, -, -⟩)
    · exact absurd rfl htype
    · exact ⟨_, hx, rfl⟩
    · simp at he
  · rintro ⟨x, hx, rfl⟩
    exact .single he hx

theorem denotesRange_iff_of_slash (htype : type ≠ .text) {ordered : Bool} {a b : List Char}
    (ha : '/' ∉ a) (hb : '/' ∉ b) {r : Range} :
    DenotesRange ordered type (a ++ '/' :: b) r ↔
      ∃ low high, DenotesBound type ordered a low ∧ DenotesBound type ordered b high ∧
        (∀ x ∈ low, ∀ y ∈ high, x.type = y.type) ∧ Range.ofBounds low high = r := by
  constructor
  · generalize he : a ++ '/' :: b = e
    rintro (_ | ⟨hslash, -⟩ | ⟨-, ha', -, hlow, hhigh, htypes⟩)
    · exact absurd rfl htype
    · simp [← he] at hslash
    · have hcut := cut_append ha b
      rw [he, cut_append ha'] at hcut
      cases hcut
      exact ⟨_, _, hlow, hhigh, htypes, rfl⟩
  · rintro ⟨low, high, hlow, hhigh, htypes, rfl⟩
    exact .bounds htype ha hb hlow hhigh htypes

theorem not_denotesRange_of_slashes (htype : type ≠ .text) {ordered : Bool} {a b : List Char}
    (ha : '/' ∉ a) (hb : '/' ∈ b) (r : Range) : ¬ DenotesRange ordered type (a ++ '/' :: b) r := by
  generalize he : a ++ '/' :: b = e
  rintro (_ | ⟨hslash, -⟩ | ⟨-, ha', hb', -⟩)
  · exact absurd rfl htype
  · simp [← he] at hslash
  · have hcut := cut_append ha b
    rw [he, cut_append ha'] at hcut
    cases hcut
    exact hb' hb

theorem forall_type?_ofBounds_iff {low high : Option Endpoint}
    (h : ∀ x ∈ low, ∀ y ∈ high, x.type = y.type) :
    (∀ t, (Range.ofBounds low high).type? = some t → t = type) ↔
      (∀ x ∈ low, x.type = type) ∧ ∀ y ∈ high, y.type = type := by
  cases low with
  | none => cases high <;> simp [Range.ofBounds, Range.type?, Range.value?, Range.low?, Range.high?]
  | some x =>
    cases high with
    | none => simp [Range.ofBounds, Range.type?, Range.value?, Range.low?, Range.high?]
    | some y =>
      have hxy : x.type = y.type := h x rfl y rfl
      simp [Range.ofBounds, Range.type?, Range.value?, Range.low?, hxy]

/-- An element stands for a range just if it is read as the range and the list takes it. -/
theorem denotesRange_iff (hs : s.declared = some type) {e : List Char} (he : trim e = e)
    {r : Range} :
    DenotesRange s.ordered type e r ↔ s.readRange e = .ok r ∧ s.Takes r := by
  rw [takes_iff_of_declared hs, readRange, hs]
  by_cases htype : type = .text
  · subst htype
    rw [if_pos rfl, denotesRange_text_iff, Except.ok.injEq, eq_comm]
    refine ⟨fun h => ⟨h, ?_⟩, And.left⟩
    rintro - t ht
    rw [← h] at ht
    cases ht
    rfl
  rw [if_neg (by simpa using htype)]
  by_cases hslash : '/' ∈ e
  · obtain ⟨a, b, rfl, ha⟩ := List.eq_append_cons_of_mem hslash
    rw [splitOn_mark ha]
    by_cases hb : '/' ∈ b
    · obtain ⟨c, d, rfl, hc⟩ := List.eq_append_cons_of_mem hb
      obtain ⟨w, ws, hws⟩ := List.exists_cons_of_ne_nil (splitOn_ne_nil (· == '/') d)
      rw [splitOn_mark hc, hws]
      exact iff_of_false (not_denotesRange_of_slashes htype ha hb r) fun h => by cases h.1
    · rw [splitOn_no_mark hb, readParts_sides, readsDates_of_declared hs,
        denotesRange_iff_of_slash htype ha hb]
      simp only [bind_eq_ok_iff, between?_eq_ok_iff, denotesBound_iff htype]
      constructor
      · rintro ⟨low, high, ⟨hlow, htlow⟩, ⟨hhigh, hthigh⟩, htypes, rfl⟩
        refine ⟨⟨low, hlow, high, hhigh, htypes, rfl⟩, fun hordered => ?_⟩
        exact (forall_type?_ofBounds_iff htypes).2 ⟨htlow hordered, hthigh hordered⟩
      · rintro ⟨⟨low, hlow, high, hhigh, htypes, rfl⟩, htakes⟩
        have hof := fun hordered => (forall_type?_ofBounds_iff htypes).1 (htakes hordered)
        exact ⟨low, high, ⟨hlow, fun h => (hof h).1⟩, ⟨hhigh, fun h => (hof h).2⟩, htypes, rfl⟩
  · rw [splitOn_no_mark hslash, denotesRange_iff_of_no_slash htype hslash, readParts]
    simp only [he, readsDates_of_declared hs, bind_eq_ok_iff, denotesEndpoint_iff htype]
    constructor
    · rintro ⟨x, ⟨hx, htx⟩, rfl⟩
      exact ⟨⟨x, hx, rfl⟩, fun hordered t ht => by rw [← htx hordered]; exact (Option.some.inj ht).symm⟩
    · rintro ⟨⟨x, hx, hr⟩, htakes⟩
      cases hr
      exact ⟨x, ⟨hx, fun hordered => htakes hordered _ rfl⟩, rfl⟩

/-- Elements are read just if each of them stands for a range. -/
theorem exists_addElements_eq_ok_iff (hs : s.declared = some type) {es : List (List Char)}
    (hes : ∀ e ∈ es, trim e = e) {t : RangeList} :
    (∃ n, s.addElements es = (t, .ok n)) ↔
      ∃ rs, List.Forall₂ (DenotesRange s.ordered type) es rs ∧ s.addAll rs = t := by
  induction es generalizing s with
  | nil => simp [addElements, addAll]
  | cons e es ih =>
    have he := hes e List.mem_cons_self
    have hlater : ∀ d ∈ es, trim d = d := fun d hd => hes d (List.mem_cons_of_mem _ hd)
    constructor
    · rintro ⟨n, h⟩
      obtain ⟨r, u, m, hr, hpush, hrest⟩ := addElements_cons_eq_ok h
      obtain ⟨htakes, rfl⟩ := push_eq_ok.1 hpush
      obtain ⟨rs, hrs, ht⟩ := (@ih (s.add r) hs hlater).1 ⟨m, hrest⟩
      exact ⟨r :: rs, .cons ((denotesRange_iff hs he).2 ⟨hr, htakes⟩) hrs, ht⟩
    · rintro ⟨_, hdenotes, ht⟩
      cases hdenotes with
      | @cons _ r _ rs hr hrs =>
        obtain ⟨hread, htakes⟩ := (denotesRange_iff hs he).1 hr
        obtain ⟨m, hrest⟩ := (@ih (s.add r) hs hlater).2 ⟨rs, hrs, ht⟩
        exact ⟨m + 1, addElements_cons hread (push_eq_ok.2 ⟨htakes, rfl⟩) hrest⟩

end Declared

/-! ## Texts -/

theorem forall_exists_iff_exists_forall₂ {α β : Type} {R : α → β → Prop} {xs : List α} :
    (∀ x ∈ xs, ∃ y, R x y) ↔ ∃ ys, List.Forall₂ R xs ys := by
  induction xs with
  | nil => exact iff_of_true (List.forall_mem_nil _) ⟨[], .nil⟩
  | cons x xs ih =>
    rw [List.forall_mem_cons, ih]
    constructor
    · rintro ⟨⟨y, hy⟩, ys, hys⟩
      exact ⟨y :: ys, .cons hy hys⟩
    · rintro ⟨_, h⟩
      cases h with
      | cons hy hys => exact ⟨⟨_, hy⟩, _, hys⟩

/-- What a text gives under a declared type: the ranges of its elements are added and then the
properties of its items set. -/
theorem read_eq_ok_iff_grammar {cs : List Char} {type : ValueType} {ordered : Bool}
    {s : RangeList} :
    read cs (some type) ordered = .ok s ↔
      ∃ rs, List.Forall₂ (DenotesRange ordered type) (partsOf cs).1 rs ∧
        (∀ i ∈ (partsOf cs).2, ¬ IsUnnamed i) ∧
        ((empty (some type) ordered).addAll rs).setProperties ((partsOf cs).2.map setting) = s := by
  obtain ⟨helements, hproperties⟩ := @isItem_of_mem_partsOf cs
  have hadds := fun t => @exists_addElements_eq_ok_iff (empty (some type) ordered) type rfl
    (partsOf cs).1 (fun e he => (helements e he).trimmed) t
  simp only [read_eq_ok_iff_parts, hadds, exists_addProperties_eq_ok_iff hproperties]
  constructor
  · rintro ⟨_, ⟨rs, hrs, rfl⟩, hnamed, hs⟩
    exact ⟨rs, hrs, hnamed, hs⟩
  · rintro ⟨rs, hrs, hnamed, hs⟩
    exact ⟨_, ⟨rs, hrs, rfl⟩, hnamed, hs⟩

/-- A text is read under a declared type just if each of its elements stands for a range and each of
its properties has a name.  The list that it gives holds the ranges of the elements, an ordered one
sorted and with their bounds in order, and the properties with the values that were set last. -/
theorem read_by_grammar (cs : List Char) (type : ValueType) (ordered : Bool) :
    ((∃ s, read cs (some type) ordered = .ok s) ↔
      (∀ e ∈ (partsOf cs).1, ∃ r, DenotesRange ordered type e r) ∧
        ∀ i ∈ (partsOf cs).2, ¬ IsUnnamed i) ∧
    ∀ s, read cs (some type) ordered = .ok s →
      s.ordered = ordered ∧ s.declared = some type ∧ s.type? = some type ∧
      (∀ rs, List.Forall₂ (DenotesRange ordered type) (partsOf cs).1 rs →
        s.ranges = arrange ordered rs) ∧
      (ordered = true → ∀ low high, .closed low high ∈ s.ranges → low.compare high ≠ .gt) ∧
      Latest ((partsOf cs).2.map setting) s.properties := by
  constructor
  · simp only [read_eq_ok_iff_grammar, forall_exists_iff_exists_forall₂]
    constructor
    · rintro ⟨s, rs, hrs, hnamed, -⟩
      exact ⟨⟨rs, hrs⟩, hnamed⟩
    · rintro ⟨⟨rs, hrs⟩, hnamed⟩
      exact ⟨_, rs, hrs, hnamed, rfl⟩
  · intro s hread
    obtain ⟨rs, hrs, hnamed, rfl⟩ := read_eq_ok_iff_grammar.1 hread
    have hset := setProperties_eq ((empty (some type) ordered).addAll rs)
      ((partsOf cs).2.map setting)
    have hadd := (empty (some type) ordered).addAll_eq rs
    have hdeclared : (((empty (some type) ordered).addAll rs).setProperties
        ((partsOf cs).2.map setting)).declared = some type := by
      rw [hset, hadd]
      rfl
    have hranges (rs' : List Range) : (((empty (some type) ordered).addAll rs').setProperties
        ((partsOf cs).2.map setting)).ranges = arrange ordered rs' := by
      rw [setProperties_eq]
      exact @ranges_addAll (empty (some type) ordered) [] (arrange_nil ordered).symm rs'
    refine ⟨by rw [hset, hadd]; rfl, hdeclared, type?_of_declared hdeclared, fun rs' hrs' => ?_,
      ?_, ?_⟩
    · -- whichever way the elements are understood, the same list is read
      have hsame := hread.symm.trans (read_eq_ok_iff_grammar.2 ⟨rs', hrs', hnamed, rfl⟩)
      rw [Except.ok.inj hsame, hranges]
    · rintro rfl low high hmem
      rw [hranges] at hmem
      exact compare_ne_gt_of_mem_arrange hmem
    · refine @Latest.setProperties _ [] ?_ _
      rw [hadd]
      exact latest_nil

/-- An ordered list of numbers with blanks, empty elements and a property set twice is read as `/2`,
`1/9` and `5`; and an element stands for no range, its bounds being a number and a text. -/
theorem read_by_grammar_numbers :
    (∃ s, read "9/1, /2,,5;b = c,;d,b=e".toList (some .numeric) true = .ok s ∧
      s.ranges = [.atMost (.number ⟨0x4000000000000000⟩),
        .closed (.number ⟨0x3FF0000000000000⟩) (.number ⟨0x4022000000000000⟩),
        .single (.number ⟨0x4014000000000000⟩)] ∧
      Latest [("b", "c"), ("d", "true"), ("b", "e")] s.properties) ∧
    ¬ ∃ r, DenotesRange false .numeric ['9', '/', 'x'] r := by
  have hparts : partsOf "9/1, /2,,5;b = c,;d,b=e".toList =
      ([['9', '/', '1'], ['/', '2'], ['5']], ["b = c".toList, "d".toList, "b=e".toList]) := by
    decide +kernel
  have hparts' : partsOf "9/x".toList = ([['9', '/', 'x']], []) := by decide +kernel
  have hnine : IsNumeral ['9'] ⟨0x4022000000000000⟩ := ⟨⟨'9', by decide⟩, by decide +kernel⟩
  have hone : IsNumeral ['1'] ⟨0x3FF0000000000000⟩ := ⟨⟨'1', by decide⟩, by decide +kernel⟩
  have htwo : IsNumeral ['2'] ⟨0x4000000000000000⟩ := ⟨⟨'2', by decide⟩, by decide +kernel⟩
  have hfive : IsNumeral ['5'] ⟨0x4014000000000000⟩ := ⟨⟨'5', by decide⟩, by decide +kernel⟩
  have helements : List.Forall₂ (DenotesRange true .numeric) [['9', '/', '1'], ['/', '2'], ['5']]
      [.closed (.number ⟨0x4022000000000000⟩) (.number ⟨0x3FF0000000000000⟩),
        .atMost (.number ⟨0x4000000000000000⟩), .single (.number ⟨0x4014000000000000⟩)] := by
    refine .cons ?_ (.cons ?_ (.cons (.single (by decide) (.number hfive)) .nil))
    · exact @DenotesRange.bounds true .numeric ['9'] ['1'] _ _ (by decide) (by decide) (by decide)
        (.present (by decide) (.number hnine)) (.present (by decide) (.number hone))
        (by simp [Endpoint.type])
    · exact @DenotesRange.bounds true .numeric [] ['2'] none _ (by decide) (by decide) (by decide)
        (.missing rfl) (.present (by decide) (.number htwo)) (by simp)
  constructor
  · obtain ⟨hok, hlist⟩ := read_by_grammar "9/1, /2,,5;b = c,;d,b=e".toList .numeric true
    rw [hparts] at hok hlist
    obtain ⟨s, hs⟩ := hok.2 ⟨forall_exists_iff_exists_forall₂.2 ⟨_, helements⟩, by decide⟩
    obtain ⟨-, -, -, hranges, -, hlatest⟩ := hlist s hs
    -- sorting does not evaluate, and placing one range after the other does
    have hplaced := @ranges_addAll (empty (some .numeric) true) [] (arrange_nil true).symm
    exact ⟨s, hs, (hranges _ helements).trans ((hplaced _).symm.trans (by decide +kernel)), hlatest⟩
  · rintro ⟨r, hr⟩
    have hok := (read_by_grammar "9/x".toList .numeric false).1
    rw [hparts'] at hok
    obtain ⟨s, hs⟩ := hok.2 ⟨List.forall_mem_singleton.2 ⟨r, hr⟩, List.forall_mem_nil _⟩
    have hread : read "9/x".toList (some .numeric) false =
        .error (.mixedEndpoints (.number ⟨0x4022000000000000⟩) (.text "x")) := by decide +kernel
    cases hread.symm.trans hs

end RangeList

end SkyDiscovery
