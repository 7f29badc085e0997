import Mathlib.Data.Nat.Count
import SkyDiscovery.Proofs.Engine.Origin
import SkyDiscovery.Proofs.Number.RoundTrip
import SkyDiscovery.Proofs.Record.Variant

/-!
# Associations

The records of a row with two or more variants share an association.  Its number is drawn before any
of them is made, so it has to be shown that none is drawn in vain: the first variant of such a row is
the stored file, which is never discarded.

* `Pipeline.visits_eq_flatMap`: a row of the stream gets the number of such rows up to it.
* `associated_of_first`: the records of the first visits of a stream are associated by rows, without
  gaps, and each virtual record stands right behind the record of its stored file.
* `process_associates`: so are the records of every response.
-/

namespace SkyDiscovery

namespace Expander

/-- The identifier of an association. -/
def associationId (n : Nat) : String :=
  "MultiFormat." ++ String.ofList (Text.digits n)

theorem associationId_injective {m n : Nat} (h : associationId m = associationId n) : m = n := by
  have htexts := congrArg String.toList h
  simp only [associationId, String.toList_append, String.toList_ofList,
    List.append_cancel_left_eq] at htexts
  rw [← Decimal.valueOfDigits_digits m, htexts, Decimal.valueOfDigits_digits]

theorem associate_of_two_le {drawn count : Nat} (h : 2 ≤ count) :
    associate drawn count = (drawn + 1, some (associationId (drawn + 1))) :=
  if_neg (Nat.not_lt.2 h)

theorem associate_of_lt_two {drawn count : Nat} (h : count < 2) :
    associate drawn count = (drawn, none) :=
  if_pos h

end Expander

/-! ## Counting without gaps -/

/-- Where `q` holds of all places with `p` before one for which it holds, these are the first places
with `p`, and each number below theirs is the number of places with `p` before one of them. -/
theorem lt_count_iff_of_closed {p q : Nat → Prop} [DecidablePred p] [DecidablePred q]
    (hclosed : ∀ j k, j < k → p j → p k → q k → q j) (n i : Nat) :
    i < Nat.count (fun k => p k ∧ q k) n ↔ ∃ k < n, p k ∧ q k ∧ Nat.count p k = i := by
  induction n with
  | zero => simp
  | succ n ih =>
    rw [Nat.count_succ]
    by_cases h : p n ∧ q n
    · have hall : Nat.count (fun k => p k ∧ q k) n = Nat.count p n := by
        apply Nat.le_antisymm
        · exact Nat.count_mono_left fun k _ hk => hk.1
        · exact Nat.count_mono_left fun k hk hp => ⟨hp, hclosed k n hk hp h.1 h.2⟩
      rw [if_pos h]
      constructor
      · intro hi
        rcases Nat.lt_or_ge i (Nat.count (fun k => p k ∧ q k) n) with hlt | hge
        · obtain ⟨k, hk, hfound⟩ := ih.1 hlt
          exact ⟨k, by omega, hfound⟩
        · exact ⟨n, by omega, h.1, h.2, by omega⟩
      · rintro ⟨k, hk, hp, hq, rfl⟩
        rcases Nat.lt_or_ge k n with hlt | hge
        · have := ih.2 ⟨k, hlt, hp, hq, rfl⟩
          omega
        · obtain rfl : k = n := by omega
          omega
    · rw [if_neg h, Nat.add_zero, ih]
      constructor
      · rintro ⟨k, hk, hfound⟩
        exact ⟨k, by omega, hfound⟩
      · rintro ⟨k, hk, hp, hq, hcount⟩
        refine ⟨k, ?_, hp, hq, hcount⟩
        by_contra hge
        obtain rfl : k = n := by omega
        exact h ⟨hp, hq⟩

theorem exists_of_flatMap_eq_append_cons {α β : Type} {f : α → List β} {xs : List α}
    {before after : List β} {y : β} (h : xs.flatMap f = before ++ y :: after) :
    ∃ x ∈ xs, ∃ earlier first last, f x = first ++ y :: last ∧ before = earlier ++ first := by
  induction xs generalizing before with
  | nil => simp at h
  | cons x xs ih =>
    rw [List.flatMap_cons] at h
    rcases List.append_eq_append_iff.1 h with ⟨more, rfl, hrest⟩ | ⟨more, hx, hrest⟩
    · obtain ⟨x', hx', earlier, first, last, hfound, rfl⟩ := ih hrest
      exact ⟨x', List.mem_cons_of_mem x hx', f x ++ earlier, first, last, hfound,
        (List.append_assoc _ _ _).symm⟩
    · rcases more with _ | ⟨z, more⟩
      · have hlater : xs.flatMap f = [] ++ y :: after := hrest.symm
        obtain ⟨x', hx', earlier, first, last, hfound, hnil⟩ := ih hlater
        obtain ⟨-, rfl⟩ := List.append_eq_nil_iff.1 hnil.symm
        exact ⟨x', List.mem_cons_of_mem x hx', before, [], last, hfound,
          (List.append_nil before).symm⟩
      · obtain ⟨rfl, -⟩ := List.cons.inj hrest
        exact ⟨x, List.mem_cons_self, [], before, more, hx, rfl⟩

namespace Engine

/-! ## Visits with their places -/

/-- A record with the row that it comes from and the place of this row in the stream. -/
structure Sourced where
  place : Nat
  row : Row
  record : Record

namespace Pipeline

variable (l : Pipeline)

/-- Whether the records of an item share an association: it is a row that is admitted and has two or
more variants. -/
def isShared : CursorItem → Bool
  | .ok row => l.admits row && decide (2 ≤ (l.expander.variants row).length)
  | .error _ => false

def SharedAt (items : List CursorItem) (k : Nat) : Prop :=
  (items[k]?).any l.isShared = true

instance (items : List CursorItem) : DecidablePred (l.SharedAt items) :=
  fun _ => inferInstanceAs (Decidable (_ = true))

/-- The number of associations drawn before the item at a place. -/
def drawnBefore (items : List CursorItem) (k : Nat) : Nat :=
  Nat.count (l.SharedAt items) k

theorem sharedAt_iff {items : List CursorItem} {k : Nat} :
    l.SharedAt items k ↔ ∃ row, items[k]? = some (.ok row) ∧ l.admits row = true ∧
      2 ≤ (l.expander.variants row).length := by
  unfold SharedAt
  rcases items[k]? with _ | f | row <;> simp [isShared]

/-- The number of the association of the item at a place. -/
def number? (items : List CursorItem) (k : Nat) : Option Nat :=
  if l.SharedAt items k then some (l.drawnBefore items k + 1) else none

theorem number?_eq_some_iff {items : List CursorItem} {k n : Nat} :
    l.number? items k = some n ↔ l.SharedAt items k ∧ l.drawnBefore items k + 1 = n := by
  unfold number?
  split <;> simp [*]

theorem number?_mono {items : List CursorItem} {j k m n : Nat} (hjk : j ≤ k)
    (hm : l.number? items j = some m) (hn : l.number? items k = some n) : m ≤ n := by
  obtain ⟨-, rfl⟩ := l.number?_eq_some_iff.1 hm
  obtain ⟨-, rfl⟩ := l.number?_eq_some_iff.1 hn
  exact Nat.succ_le_succ (Nat.count_monotone _ hjk)

/-- Different places have different numbers. -/
theorem number?_injective {items : List CursorItem} {j k n : Nat}
    (hj : l.number? items j = some n) (hk : l.number? items k = some n) : j = k := by
  obtain ⟨hsharedj, hcountj⟩ := l.number?_eq_some_iff.1 hj
  obtain ⟨hsharedk, hcountk⟩ := l.number?_eq_some_iff.1 hk
  exact Nat.count_injective hsharedj hsharedk (Nat.succ_inj.1 (hcountj.trans hcountk.symm))

/-- The visits to the row at a place; `drawn` associations were drawn before the stream. -/
def visitsAt (drawn : Nat) (items : List CursorItem) (k : Nat) : List Visit :=
  match items[k]? with
  | some (.ok row) =>
    if l.admits row then l.visitsOf (drawn + l.drawnBefore items k) row else []
  | _ => []

/-- The visits of a stream, each with the place of its row. -/
def placedVisits (items : List CursorItem) : List (Nat × Visit) :=
  (List.range items.length).flatMap fun k => (l.visitsAt 0 items k).map (k, ·)

def source? (v : Nat × Visit) : Option Sourced :=
  (l.record? v.2).map (⟨v.1, v.2.row, ·⟩)

/-- The records that a stream yields without a limit, each with its source. -/
def sourced (items : List CursorItem) : List Sourced :=
  (l.placedVisits items).filterMap l.source?

/-- The number of rows with two or more variants of which there are records. -/
def sharedRows (items : List CursorItem) (rs : List Sourced) : Nat :=
  Nat.count (fun k => l.SharedAt items k ∧ ∃ a ∈ rs, a.place = k) items.length

theorem drawnBefore_cons (item : CursorItem) (rest : List CursorItem) (k : Nat) :
    l.drawnBefore (item :: rest) (k + 1) =
      (if l.isShared item then 1 else 0) + l.drawnBefore rest k := by
  rw [drawnBefore, Nat.count_succ', Nat.add_comm]
  rfl

theorem drawnAfter_eq (drawn : Nat) (item : CursorItem) :
    l.drawnAfter drawn item = drawn + if l.isShared item then 1 else 0 := by
  rcases item with f | row
  · rfl
  · by_cases hadmits : l.admits row
    · by_cases hcount : 2 ≤ (l.expander.variants row).length
      · simp [drawnAfter, isShared, hadmits, hcount, Expander.associate_of_two_le]
      · have hassociate : Expander.associate drawn (l.expander.variants row).length = (drawn, none) :=
          Expander.associate_of_lt_two (Nat.not_le.1 hcount)
        simp [drawnAfter, isShared, hadmits, hcount, hassociate]
    · simp [drawnAfter, isShared, hadmits]

theorem visitsAt_succ (drawn : Nat) (item : CursorItem) (rest : List CursorItem) (k : Nat) :
    l.visitsAt drawn (item :: rest) (k + 1) = l.visitsAt (l.drawnAfter drawn item) rest k := by
  rw [visitsAt, visitsAt, List.getElem?_cons_succ, drawnBefore_cons, drawnAfter_eq,
    ← Nat.add_assoc]

/-- A row of the stream gets the number of the rows with two or more variants up to it. -/
theorem visits_eq_flatMap (drawn : Nat) (items : List CursorItem) :
    l.visits drawn items = (List.range items.length).flatMap (l.visitsAt drawn items) := by
  induction items generalizing drawn with
  | nil => rfl
  | cons item rest ih =>
    rw [List.length_cons, List.range_succ_eq_map, List.flatMap_cons, List.flatMap_map]
    simp only [Nat.succ_eq_add_one, l.visitsAt_succ, ← ih]
    rcases item with f | row
    · rfl
    · by_cases hadmits : l.admits row
      · simp [visits, visitsAt, drawnAfter, drawnBefore, hadmits]
      · simp [visits, visitsAt, drawnAfter, hadmits]

theorem map_snd_placedVisits (items : List CursorItem) :
    (l.placedVisits items).map Prod.snd = l.visits 0 items := by
  rw [visits_eq_flatMap, placedVisits, List.map_flatMap]
  simp [Function.comp_def]

theorem mem_placedVisits {items : List CursorItem} {v : Nat × Visit} :
    v ∈ l.placedVisits items ↔ ∃ row, items[v.1]? = some (.ok row) ∧ l.admits row = true ∧
      v.2 ∈ l.visitsOf (l.drawnBefore items v.1) row := by
  obtain ⟨k, v⟩ := v
  simp only [placedVisits, List.mem_flatMap, List.mem_map, Prod.mk.injEq, List.mem_range]
  constructor
  · rintro ⟨j, hj, u, hu, rfl, rfl⟩
    unfold visitsAt at hu
    split at hu
    · next row hrow =>
      split at hu
      · next hadmits => exact ⟨row, hrow, hadmits, by rwa [Nat.zero_add] at hu⟩
      · cases hu
    · cases hu
  · rintro ⟨row, hrow, hadmits, hv⟩
    refine ⟨k, ?_, v, ?_, rfl, rfl⟩
    · exact (List.getElem?_eq_some_iff.1 hrow).1
    · simpa [visitsAt, hrow, hadmits] using hv

theorem pairwise_placedVisits (items : List CursorItem) :
    (l.placedVisits items).Pairwise fun u v => u.1 ≤ v.1 := by
  rw [placedVisits, List.pairwise_flatMap]
  constructor
  · intro k _
    rw [List.pairwise_map]
    exact List.pairwise_of_forall fun _ _ => Nat.le_refl k
  · refine List.pairwise_lt_range.imp fun hlt u hu v hv => ?_
    obtain ⟨_, -, rfl⟩ := List.mem_map.1 hu
    obtain ⟨_, -, rfl⟩ := List.mem_map.1 hv
    exact Nat.le_of_lt hlt

/-- A stored file that does not fail leaves a record. -/
theorem exists_record? {v : Visit} (hsound : ∃ made, (l.recordOf v).value = .ok made)
    (hproduct : v.variant.product ≠ .virtual) : ∃ r, l.record? v = some r := by
  obtain ⟨made, hmade⟩ := hsound
  cases made with
  | none => exact absurd (Expander.virtual_of_discarded hmade) hproduct
  | some r => exact ⟨r, record?_of_ok hmade⟩

theorem source?_eq_some {v : Nat × Visit} {a : Sourced} (h : l.source? v = some a) :
    l.record? v.2 = some a.record ∧ a.place = v.1 ∧ a.row = v.2.row := by
  obtain ⟨r, hr, rfl⟩ := Option.map_eq_some_iff.1 h
  exact ⟨hr, rfl, rfl⟩

/-! ## The records of the first visits -/

section

variable {l : Pipeline} {items : List CursorItem} {vs ws : List (Nat × Visit)}

/-- A record comes from an admitted row of the stream, and has the association of its place. -/
theorem source_of_mem (hvisits : l.placedVisits items = vs ++ ws) {a : Sourced}
    (ha : a ∈ vs.filterMap l.source?) :
    items[a.place]? = some (.ok a.row) ∧ l.admits a.row = true ∧
      a.record.association = (l.number? items a.place).map Expander.associationId := by
  obtain ⟨v, hv, hsource⟩ := List.mem_filterMap.1 ha
  obtain ⟨hrecord, hplace, hrow⟩ := l.source?_eq_some hsource
  obtain ⟨row, hitem, hadmits, hmem⟩ :=
    l.mem_placedVisits.1 (hvisits ▸ List.mem_append_left ws hv)
  obtain ⟨rfl, -, hassociation⟩ := mem_visitsOf hmem
  rw [hplace, hrow]
  refine ⟨hitem, hadmits, (record?_label hrecord).2.trans (hassociation.trans ?_)⟩
  have hshared : l.SharedAt items v.1 ↔ 2 ≤ (l.expander.variants v.2.row).length := by
    rw [sharedAt_iff, hitem]
    simp [hadmits]
  by_cases hcount : 2 ≤ (l.expander.variants v.2.row).length
  · rw [number?, if_pos (hshared.2 hcount), Expander.associate_of_two_le hcount]
    rfl
  · rw [number?, if_neg (mt hshared.1 hcount),
      Expander.associate_of_lt_two (Nat.not_le.1 hcount)]
    rfl

/-- When a visit to a row is made, the rows with two or more variants before it have left their
records. -/
theorem exists_record_before (hmodes : l.expander.modes.virtual = true →
      l.expander.modes.archival = true)
    (hvisits : l.placedVisits items = vs ++ ws)
    (hsound : ∀ v ∈ vs, ∃ made, (l.recordOf v.2).value = .ok made) {j : Nat} {v : Nat × Visit}
    (hj : j < v.1) (hshared : l.SharedAt items j) (hv : v ∈ vs) :
    ∃ a ∈ vs.filterMap l.source?, a.place = j := by
  obtain ⟨row, hitem, hadmits, hcount⟩ := l.sharedAt_iff.1 hshared
  rcases hvariants : l.expander.variants row with _ | ⟨stored, others⟩
  · simp [hvariants] at hcount
  obtain ⟨u, hu, rfl, rfl⟩ : ∃ u ∈ l.visitsOf (l.drawnBefore items j) row,
      u.row = row ∧ u.variant = stored :=
    ⟨_, List.mem_map_of_mem (hvariants ▸ List.mem_cons_self), rfl, rfl⟩
  have hfirst : (j, u) ∈ vs := by
    have hmem : (j, u) ∈ l.placedVisits items := l.mem_placedVisits.2 ⟨_, hitem, hadmits, hu⟩
    have hplaces := l.pairwise_placedVisits items
    rw [hvisits] at hmem hplaces
    refine (List.mem_append.1 hmem).resolve_right fun hlater => ?_
    have hle : v.1 ≤ j := (List.pairwise_append.1 hplaces).2.2 v hv _ hlater
    omega
  obtain ⟨r, hr⟩ := l.exists_record? (hsound _ hfirst)
    (Variant.archival_of_select_eq_cons hmodes hvariants)
  exact ⟨⟨j, u.row, r⟩, List.mem_filterMap.2 ⟨_, hfirst, congrArg (Option.map _) hr⟩, rfl⟩

/-- Right before the visit to a virtual variant stands the visit to its stored file. -/
theorem stored_before_virtual (hmodes : l.expander.modes.virtual = true →
      l.expander.modes.archival = true)
    {before after : List (Nat × Visit)} {v : Nat × Visit}
    (hvisits : l.placedVisits items = before ++ v :: after)
    (hv : v.2.variant.product = .virtual) :
    ∃ earlier u, before = earlier ++ [(v.1, u)] ∧ u.variant = ⟨v.2.variant.mime, .archival⟩ ∧
      u.association = v.2.association := by
  obtain ⟨k, -, earlier, firsts, others, hrow, rfl⟩ := exists_of_flatMap_eq_append_cons hvisits
  obtain ⟨us, ws, hsplit, rfl, hws⟩ := List.map_eq_append_iff.1 hrow
  obtain ⟨u, ws, rfl, rfl, -⟩ := List.map_eq_cons_iff.1 hws
  unfold visitsAt at hsplit
  split at hsplit
  · next row hitem =>
    split at hsplit
    · obtain ⟨variants, more, hvariants, rfl, hmore⟩ := List.map_eq_append_iff.1 hsplit
      obtain ⟨variant, more, rfl, rfl, -⟩ := List.map_eq_cons_iff.1 hmore
      rw [Variant.before_virtual_eq hmodes hvariants hv]
      exact ⟨earlier, _, rfl, rfl, rfl⟩
    · simp at hsplit
  · simp at hsplit

end

end Pipeline

/-! ## Responses -/

/-- Records are associated by the rows of the stream that they come from. -/
structure Associated (l : Pipeline) (items : List CursorItem) (rs : List Sourced) : Prop where
  source : ∀ a ∈ rs, items[a.place]? = some (.ok a.row) ∧ l.admits a.row = true
  /-- A record has an association exactly if its row has two or more variants. -/
  isSome_iff : ∀ a ∈ rs, a.record.association.isSome = true ↔
    2 ≤ (l.expander.variants a.row).length
  /-- Two records share an association exactly if both have one and they come from one row. -/
  shared_iff : ∀ a ∈ rs, ∀ b ∈ rs,
    (∃ id, a.record.association = some id ∧ b.record.association = some id) ↔
      a.record.association.isSome = true ∧ b.record.association.isSome = true ∧ a.place = b.place
  /-- The associations are numbered in the order of the records, from one and without gaps. -/
  numbered : ∃ numbers : List Nat,
    rs.filterMap (fun a => a.record.association) = numbers.map Expander.associationId ∧
      numbers.Pairwise (· ≤ ·) ∧ ∀ n, n ∈ numbers ↔ 1 ≤ n ∧ n ≤ l.sharedRows items rs
  /-- Right before a virtual record stands the record of its stored file. -/
  paired : ∀ before a after, rs = before ++ a :: after → a.record.product = .virtual →
    ∃ earlier b, before = earlier ++ [b] ∧ b.place = a.place ∧ b.record.product = .archival ∧
      b.record.format = a.record.format ∧ b.record.association = a.record.association

section

variable {l : Pipeline} {items : List CursorItem} {vs ws : List (Nat × Visit)}

theorem numbered_of_first (hmodes : l.expander.modes.virtual = true →
      l.expander.modes.archival = true)
    (hvisits : l.placedVisits items = vs ++ ws)
    (hsound : ∀ v ∈ vs, ∃ made, (l.recordOf v.2).value = .ok made) :
    ∃ numbers : List Nat,
      (vs.filterMap l.source?).filterMap (fun a => a.record.association) =
        numbers.map Expander.associationId ∧
      numbers.Pairwise (· ≤ ·) ∧
      ∀ n, n ∈ numbers ↔ 1 ≤ n ∧ n ≤ l.sharedRows items (vs.filterMap l.source?) := by
  refine ⟨(vs.filterMap l.source?).filterMap fun a => l.number? items a.place, ?_, ?_, ?_⟩
  · rw [List.map_filterMap]
    exact List.filterMap_congr fun a ha => (Pipeline.source_of_mem hvisits ha).2.2
  · have hplaces := (List.pairwise_append.1 (hvisits ▸ l.pairwise_placedVisits items)).1
    rw [List.pairwise_filterMap, List.pairwise_filterMap]
    refine hplaces.imp fun hle a ha b hb m hm n hn => ?_
    rw [(l.source?_eq_some ha).2.1] at hm
    rw [(l.source?_eq_some hb).2.1] at hn
    exact l.number?_mono hle hm hn
  · intro n
    -- The rows that have left records are the first of those with several variants.
    have hclosed : ∀ j k, j < k → l.SharedAt items j → l.SharedAt items k →
        (∃ a ∈ vs.filterMap l.source?, a.place = k) →
        ∃ a ∈ vs.filterMap l.source?, a.place = j := by
      rintro j k hjk hshared - ⟨a, ha, rfl⟩
      obtain ⟨v, hv, hsource⟩ := List.mem_filterMap.1 ha
      rw [(l.source?_eq_some hsource).2.1] at hjk
      exact Pipeline.exists_record_before hmodes hvisits hsound hjk hshared hv
    have hcount := lt_count_iff_of_closed hclosed items.length (n - 1)
    rw [List.mem_filterMap]
    constructor
    · rintro ⟨a, ha, hn⟩
      obtain ⟨hshared, rfl⟩ := l.number?_eq_some_iff.1 hn
      have hplace := (List.getElem?_eq_some_iff.1 (Pipeline.source_of_mem hvisits ha).1).1
      exact ⟨Nat.le_add_left 1 _, hcount.2 ⟨a.place, hplace, hshared, ⟨a, ha, rfl⟩, rfl⟩⟩
    · rintro ⟨hone, hle⟩
      obtain ⟨k, -, hshared, ⟨a, ha, rfl⟩, hk⟩ := hcount.1 (Nat.sub_one_lt_of_le hone hle)
      exact ⟨a, ha, l.number?_eq_some_iff.2
        ⟨hshared, (congrArg (· + 1) hk).trans (Nat.sub_add_cancel hone)⟩⟩

theorem paired_of_first (hmodes : l.expander.modes.virtual = true →
      l.expander.modes.archival = true)
    (hvisits : l.placedVisits items = vs ++ ws)
    (hsound : ∀ v ∈ vs, ∃ made, (l.recordOf v.2).value = .ok made)
    {before after : List Sourced} {a : Sourced} (h : vs.filterMap l.source? = before ++ a :: after)
    (hvirtual : a.record.product = .virtual) :
    ∃ earlier b, before = earlier ++ [b] ∧ b.place = a.place ∧ b.record.product = .archival ∧
      b.record.format = a.record.format ∧ b.record.association = a.record.association := by
  obtain ⟨us, rest, rfl, rfl, hrest⟩ := List.filterMap_eq_append_iff.1 h
  obtain ⟨discarded, v, more, rfl, hdiscarded, hsource, -⟩ := List.filterMap_eq_cons_iff.1 hrest
  obtain ⟨hrecord, hplace, -⟩ := l.source?_eq_some hsource
  have hproduct : v.2.variant.product = .virtual := by
    rw [← Pipeline.record?_product hrecord, hvirtual]
  have hsplit : l.placedVisits items = (us ++ discarded) ++ v :: (more ++ ws) := by
    rw [hvisits]
    simp only [List.append_assoc, List.cons_append]
  obtain ⟨earlier, u, hbefore, hstored, hassociation⟩ :=
    Pipeline.stored_before_virtual hmodes hsplit hproduct
  have hmade : (v.1, u) ∈ us ++ (discarded ++ v :: more) := by
    rw [← List.append_assoc, hbefore]
    simp
  have harchival : u.variant.product = .archival := by rw [hstored]
  obtain ⟨r, hr⟩ := l.exists_record? (hsound _ hmade) (by rw [harchival]; nofun)
  have hkept : l.source? (v.1, u) = some ⟨v.1, u.row, r⟩ := congrArg (Option.map _) hr
  obtain ⟨hformat, hlabel⟩ := Pipeline.record?_label hr
  obtain ⟨hformat', hlabel'⟩ := Pipeline.record?_label hrecord
  -- The stored file right before is not discarded, so nothing is discarded in between.
  rcases List.eq_nil_or_concat discarded with rfl | ⟨others, w, rfl⟩
  · rw [List.append_nil] at hbefore
    refine ⟨earlier.filterMap l.source?, ⟨v.1, u.row, r⟩, ?_, hplace.symm, ?_, ?_, ?_⟩
    · rw [hbefore, List.filterMap_append, List.filterMap_cons_some hkept, List.filterMap_nil]
    · exact (Pipeline.record?_product hr).trans harchival
    · rw [hformat, hformat', hstored]
    · rw [hlabel, hlabel', hassociation]
  · rw [List.concat_eq_append, ← List.append_assoc] at hbefore
    obtain ⟨-, hlast⟩ := List.append_inj' hbefore rfl
    have hnone := hdiscarded w (by simp)
    rw [List.singleton_inj.1 hlast, hkept] at hnone
    cases hnone

theorem associated_of_first (hmodes : l.expander.modes.virtual = true →
      l.expander.modes.archival = true)
    (hvisits : l.placedVisits items = vs ++ ws)
    (hsound : ∀ v ∈ vs, ∃ made, (l.recordOf v.2).value = .ok made) :
    Associated l items (vs.filterMap l.source?) := by
  have hsource := fun a ha => Pipeline.source_of_mem (a := a) hvisits ha
  have hshared : ∀ a ∈ vs.filterMap l.source?,
      (∃ n, l.number? items a.place = some n) ↔ a.record.association.isSome = true := by
    intro a ha
    rw [(hsource a ha).2.2, Option.isSome_map, Option.isSome_iff_exists]
  constructor
  case source => exact fun a ha => ⟨(hsource a ha).1, (hsource a ha).2.1⟩
  case isSome_iff =>
    intro a ha
    obtain ⟨hitem, hadmits, -⟩ := hsource a ha
    rw [← hshared a ha]
    simp [l.number?_eq_some_iff, l.sharedAt_iff, hitem, hadmits]
  case shared_iff =>
    intro a ha b hb
    rw [← hshared a ha, ← hshared b hb, (hsource a ha).2.2, (hsource b hb).2.2]
    constructor
    · rintro ⟨id, hid, hid'⟩
      obtain ⟨m, hm, rfl⟩ := Option.map_eq_some_iff.1 hid
      obtain ⟨n, hn, hmn⟩ := Option.map_eq_some_iff.1 hid'
      obtain rfl := Expander.associationId_injective hmn
      exact ⟨⟨n, hm⟩, ⟨n, hn⟩, l.number?_injective hm hn⟩
    · rintro ⟨⟨n, hn⟩, -, hplace⟩
      rw [← hplace, hn]
      exact ⟨_, rfl, rfl⟩
  case numbered => exact numbered_of_first hmodes hvisits hsound
  case paired => exact fun _ _ _ h hvirtual => paired_of_first hmodes hvisits hsound h hvirtual

end

/-- The records of every response are associated by the rows that they come from. -/
theorem process_associates (g : Engine) (q : CatalogQuery) (s : ParameterSet) (d : FieldDirectory)
    (items : List CursorItem) (r : Response) (hrun : (g.process q s d items).value = .ok r) :
    let l := g.pipeline q s d
    let rs := (l.sourced items).take r.records.length
    r.records = rs.map Sourced.record ∧ Associated l items rs := by
  intro l rs
  obtain ⟨us, rest, hvisits, hsound, hrecords, -⟩ := exists_visits_of_process hrun
  rw [← Pipeline.map_snd_placedVisits] at hvisits
  obtain ⟨vs, ws, hplaced, rfl, rfl⟩ := List.map_eq_append_iff.1 hvisits
  have hmap : r.records = (vs.filterMap l.source?).map Sourced.record := by
    rw [hrecords, List.filterMap_map, List.map_filterMap]
    congr 1
    funext v
    simp [Pipeline.source?, l, Function.comp_def]
  have hrs : rs = vs.filterMap l.source? := by
    have hlength : r.records.length = (vs.filterMap l.source?).length := by
      rw [hmap, List.length_map]
    simp only [rs, Pipeline.sourced]
    rw [hplaced, List.filterMap_append, hlength, List.take_left]
  have hmodes : l.expander.modes.virtual = true → l.expander.modes.archival = true :=
    ModeSelection.archival_of_virtual
  rw [hrs]
  refine ⟨hmap, associated_of_first hmodes hplaced fun v hv => ?_⟩
  exact hsound v.2 (List.mem_map_of_mem hv)

/-- Of three rows the first has three records and the second one; in the third the limit leaves no
room for the virtual record. -/
theorem process_associates_three_rows :
    let g := (Engine.make .image Sample.imageContext).withCutouts
      ⟨fun id => .ok (some id), fun _ _ => .ok (some (.ofList [("MDFILE", "cut.fits")]))⟩
    let q : CatalogQuery := ⟨"images", [], 5, none, none, none, none⟩
    let s : ParameterSet := ⟨.ofList
      [("mode", ⟨"MODE", .core, "cutout", .text "cutout"⟩),
        ("format", ⟨"FORMAT", .core, "all", .text "all"⟩)]⟩
    let items : List CursorItem :=
      [.ok (.ofList [("id", .text "7"), ("access_format", .text "image/fits,image/jpeg")]),
        .ok (.ofList [("id", .text "8"), ("access_format", .text "image/png")]),
        .ok (.ofList [("id", .text "9"), ("access_format", .text "image/fits")])]
    ∃ r, (g.process q s .empty items).value = .ok r ∧
      (r.overflow = true ∧ r.records.map Record.product =
        [.archival, .virtual, .archival, .archival, .archival]) ∧
      let l := g.pipeline q s .empty
      let rs := (l.sourced items).take r.records.length
      r.records = rs.map Sourced.record ∧ Associated l items rs := by
  intro g q s items
  have hrun : ((g.process q s .empty items).value.toOption.any fun r =>
      r.overflow = true ∧ r.records.map Record.product =
        [.archival, .virtual, .archival, .archival, .archival]) = true := by decide +kernel
  obtain ⟨r, hr, hproducts⟩ := exists_ok_of_any hrun
  exact ⟨r, hr, of_decide_eq_true hproducts, process_associates g q s .empty items r hr⟩

end Engine

end SkyDiscovery
