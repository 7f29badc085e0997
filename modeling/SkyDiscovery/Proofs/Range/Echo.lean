import SkyDiscovery.Proofs.Range.Readable

/-!
# Ranges read from their own text

The text of a range is cut at its slash into the tokens of its endpoints, and these are read as
dates or not by the state of the list that reads them.  Where that list holds dates only if the
range does, each token is read as the echo of its endpoint.

* `isItem_write`: the text of a range is an element of a list.
* `readRange_write`: a range without loss is read as it was.
* `of_readRange_write`: whatever is read from the text of a range can be written without loss.
-/

namespace SkyDiscovery

open Text Calendar

namespace Range

/-- The range can be written without loss. -/
def Printable (r : Range) : Prop :=
  ∀ x ∈ r.endpoints, x.Printable

instance : DecidablePred Printable :=
  fun r => inferInstanceAs (Decidable (∀ x ∈ r.endpoints, x.Printable))

/-- A range equal to one that can be written without loss can be as well. -/
theorem printable_of_same {r s : Range} (h : r.same s = true) (hs : s.Printable) :
    r.Printable := by
  have hone : ∀ a b : Endpoint, a.same b = true → b.Printable → ∀ x ∈ [a], x.Printable := by
    intro a b hab hb x hx
    rw [List.mem_singleton.1 hx]
    exact Endpoint.printable_of_same hab hb
  unfold same at h
  split at h
  · exact List.forall_mem_nil _
  · exact hone _ _ h (hs _ List.mem_cons_self)
  · exact hone _ _ h (hs _ List.mem_cons_self)
  · exact hone _ _ h (hs _ List.mem_cons_self)
  · next a b c d =>
    rw [Bool.and_eq_true] at h
    intro x hx
    rcases List.mem_cons.1 hx with rfl | hx
    · exact Endpoint.printable_of_same h.1 (hs c List.mem_cons_self)
    · rw [List.mem_singleton.1 hx]
      exact Endpoint.printable_of_same h.2 (hs d (by simp [endpoints]))
  · cases h

theorem same_self {r : Range} (h : r.Printable) : r.same r = true := by
  cases r with
  | any => rfl
  | single v => exact Endpoint.same_self (h v List.mem_cons_self)
  | atLeast low => exact Endpoint.same_self (h low List.mem_cons_self)
  | atMost high => exact Endpoint.same_self (h high List.mem_cons_self)
  | closed low high =>
    rw [same, Endpoint.same_self (h low List.mem_cons_self),
      Endpoint.same_self (h high (by simp [endpoints]))]
    rfl

/-! ## The text of a range -/

theorem isItem_write {declared : Option ValueType} {r : Range} (h : r.Readable declared) :
    IsItem isListMark r.write := by
  have hmark : ∀ c, isListMark c = true → isRangeMark c = true := fun c hc => by
    rw [isRangeMark, hc, Bool.true_or]
  have hnil : IsPart isListMark [] := ⟨rfl, List.forall_mem_nil _⟩
  cases h with
  | word _ hitem => exact hitem
  | bounds _ _ hreadable =>
    have hitem : ∀ x ∈ r.endpoints, IsItem isListMark x.write :=
      fun x hx => (hreadable x hx).isItem_write.mono hmark
    cases r with
    | any => exact hnil.join hnil (by decide) (by decide)
    | single v => exact hitem v List.mem_cons_self
    | atLeast low =>
      exact (hitem low List.mem_cons_self).toIsPart.join hnil (by decide) (by decide)
    | atMost high =>
      exact hnil.join (hitem high List.mem_cons_self).toIsPart (by decide) (by decide)
    | closed low high =>
      exact (hitem low List.mem_cons_self).toIsPart.join
        (hitem high (by simp [endpoints])).toIsPart (by decide) (by decide)

/-! ## Reading endpoint by endpoint -/

/-- The range of the endpoints that `f` gives. -/
def traverse (f : Endpoint → Except RangeFault Endpoint) : Range → Except RangeFault Range
  | any => .ok any
  | single v => do return single (← f v)
  | atLeast low => do return atLeast (← f low)
  | atMost high => do return atMost (← f high)
  | closed low high => do between (← f low) (← f high)

theorem traverse_eq_ok {f : Endpoint → Except RangeFault Endpoint} {r : Range} (hr : r.Uniform)
    (hf : ∀ x ∈ r.endpoints, f x = .ok x) : r.traverse f = .ok r := by
  cases r with
  | any => rfl
  | single v => rw [traverse, hf v List.mem_cons_self]; rfl
  | atLeast low => rw [traverse, hf low List.mem_cons_self]; rfl
  | atMost high => rw [traverse, hf high List.mem_cons_self]; rfl
  | closed low high =>
    have hhigh : high ∈ (closed low high).endpoints := by simp [endpoints]
    rw [traverse, hf low List.mem_cons_self, hf high hhigh]
    exact if_pos (hr low List.mem_cons_self high hhigh)

theorem of_traverse {f : Endpoint → Except RangeFault Endpoint} {r s : Range}
    (h : r.traverse f = .ok s) :
    s.Uniform ∧ (∀ y ∈ s.endpoints, ∃ x ∈ r.endpoints, f x = .ok y) ∧
      (s.endpoints = [] → r.endpoints = []) := by
  cases r with
  | any =>
    cases h
    simp [Uniform, endpoints]
  | single v =>
    obtain ⟨y, hy, hs⟩ := exists_of_bind h
    cases hs
    simp [Uniform, endpoints, hy]
  | atLeast low =>
    obtain ⟨y, hy, hs⟩ := exists_of_bind h
    cases hs
    simp [Uniform, endpoints, hy]
  | atMost high =>
    obtain ⟨y, hy, hs⟩ := exists_of_bind h
    cases hs
    simp [Uniform, endpoints, hy]
  | closed low high =>
    obtain ⟨y, hy, h⟩ := exists_of_bind h
    obtain ⟨z, hz, h⟩ := exists_of_bind h
    obtain ⟨htype, rfl⟩ := RangeList.between_eq_ok.1 h
    simp [Uniform, endpoints, hy, hz, htype]

end Range

namespace RangeList

/-- Whether the tokens of a range are read as dates. -/
def datesOf (u : RangeList) (r : Range) : Bool :=
  u.type? == some .date ||
    (u.declared.isNone && r.endpoints.any fun x => looksLikeDate x.write)

/-- The text of a range is read endpoint by endpoint. -/
theorem readRange_tokens {u : RangeList} {r : Range} (hu : u.declared ≠ some .text)
    (htokens : ∀ x ∈ r.endpoints, IsItem isRangeMark x.write) :
    u.readRange r.write = r.traverse fun x => readEndpoint (u.datesOf r) x.write := by
  have hslash : ∀ x ∈ r.endpoints, ∀ c ∈ x.write, (c == '/') = false := by
    intro x hx c hc
    have hmark := (htokens x hx).no_stop c hc
    rw [isRangeMark, Bool.or_eq_false_iff] at hmark
    exact hmark.2
  have htrim : ∀ x ∈ r.endpoints, trim x.write = x.write := fun x hx => (htokens x hx).trimmed
  have hne : ∀ x ∈ r.endpoints, x.write.isEmpty = false := by
    intro x hx
    simpa using (htokens x hx).ne_nil
  have hempty : looksLikeDate [] = false := rfl
  rw [readRange, if_neg hu]
  cases r with
  | any => rfl
  | single v =>
    have hv : v ∈ (Range.single v).endpoints := List.mem_cons_self
    have hdates : u.readsDates v.write none = u.datesOf (.single v) := by
      simp [readsDates, datesOf, Range.endpoints]
    rw [Range.write, splitOn_of_no_stop (hslash v hv), readParts, htrim v hv, hdates]
    rfl
  | atLeast low =>
    have hlow : low ∈ (Range.atLeast low).endpoints := List.mem_cons_self
    have hdates : u.readsDates low.write (some []) = u.datesOf (.atLeast low) := by
      simp [readsDates, datesOf, Range.endpoints, hempty]
    rw [Range.write, splitOn_append (hslash low hlow) (by decide), splitOn, readParts,
      htrim low hlow, show trim [] = [] from rfl, hdates, hne low hlow]
    rfl
  | atMost high =>
    have hhigh : high ∈ (Range.atMost high).endpoints := List.mem_cons_self
    have hdates : u.readsDates [] (some high.write) = u.datesOf (.atMost high) := by
      simp [readsDates, datesOf, Range.endpoints, hempty]
    have hsplit : splitOn (· == '/') ('/' :: high.write) = [[], high.write] := by
      have happend := @splitOn_append (· == '/') [] (List.forall_mem_nil _) '/' (by decide)
        high.write
      rw [splitOn_of_no_stop (hslash high hhigh)] at happend
      exact happend
    rw [Range.write, hsplit, readParts, htrim high hhigh, show trim [] = [] from rfl, hdates,
      hne high hhigh]
    rfl
  | closed low high =>
    have hlow : low ∈ (Range.closed low high).endpoints := List.mem_cons_self
    have hhigh : high ∈ (Range.closed low high).endpoints := by simp [Range.endpoints]
    have hdates : u.readsDates low.write (some high.write) = u.datesOf (.closed low high) := by
      simp [readsDates, datesOf, Range.endpoints]
    rw [Range.write, splitOn_append (hslash low hlow) (by decide),
      splitOn_of_no_stop (hslash high hhigh), readParts, htrim low hlow, htrim high hhigh, hdates,
      hne low hlow, hne high hhigh]
    rfl

/-! ## Reading in a fitting list -/

section Fitting

variable {u : RangeList} {r : Range}

/-- Tokens are read as dates only if they were written as dates. -/
theorem holdsDates_of_datesOf (hr : r.Readable u.declared)
    (hdates : u.type? = some .date → HoldsDates r) (h : u.datesOf r = true) : HoldsDates r := by
  simp only [datesOf, Bool.or_eq_true, beq_iff_eq, Bool.and_eq_true, List.any_eq_true,
    Option.isNone_iff_eq_none] at h
  rcases h with h | ⟨hnone, x, hx, hlooks⟩
  · exact hdates h
  · have htype : x.type = .date := by
      cases hr with
      | word htext _ =>
        rw [hnone] at htext
        cases htext
      | bounds _ _ hreadable =>
        cases hreadable x hx with
        | number x _ =>
          rw [Endpoint.write, not_looksLikeDate_write_number] at hlooks
          cases hlooks
        | date _ _ => rfl
        | text _ _ _ hnot =>
          rw [Endpoint.write, hnot hnone] at hlooks
          cases hlooks
    exact fun y hy => (hr.uniform y hy x hx).trans htype

/-- Tokens that are not read as dates are no dates of the years 0 to 9999. -/
theorem not_hasPlainYear_of_datesOf (hr : r.Readable u.declared) (h : u.datesOf r = false)
    {t : Instant} (ht : Endpoint.date t ∈ r.endpoints) : ¬ t.HasPlainYear := by
  simp only [datesOf, Bool.or_eq_false_iff, beq_eq_false_iff_ne, Bool.and_eq_false_iff] at h
  obtain ⟨htype, h⟩ := h
  have hnone : u.declared = none := by
    cases hr with
    | word _ _ => cases List.mem_singleton.1 ht
    | bounds htext _ hreadable =>
      cases hreadable _ ht with
      | date _ hnumeric =>
        cases hdeclared : u.declared with
        | none => rfl
        | some d =>
          cases d with
          | numeric => exact absurd hdeclared hnumeric
          | text => exact absurd hdeclared htext
          | date =>
            rw [type?, hdeclared] at htype
            exact absurd rfl htype
  intro hyear
  rcases h with h | h
  · rw [hnone] at h
    cases h
  · have hlooks := List.any_eq_false.1 h _ ht
    exact hlooks ((Instant.looksLikeDate_write t).2 hyear)

/-- Each token is read as the echo of its endpoint, or refused for want of a date. -/
theorem readEndpoint_datesOf (hr : r.Readable u.declared) (hu : u.declared ≠ some .text)
    (hdates : u.type? = some .date → HoldsDates r) {x : Endpoint} (hx : x ∈ r.endpoints) :
    readEndpoint (u.datesOf r) x.write =
      if u.datesOf r = true ∧ x.echo.type ≠ .date then
        .error (.invalidDate (String.ofList x.write))
      else .ok x.echo := by
  have hreadable : x.Readable u.declared := by
    cases hr with
    | word htext _ => exact absurd htext hu
    | bounds _ _ hreadable => exact hreadable x hx
  refine Endpoint.readEndpoint_write hreadable
    (fun h => holdsDates_of_datesOf hr hdates h x hx) fun h t ht => ?_
  rw [ht] at hx
  exact not_hasPlainYear_of_datesOf hr h hx

theorem readRange_eq (hr : r.Readable u.declared) (hu : u.declared ≠ some .text) :
    u.readRange r.write = r.traverse fun x => readEndpoint (u.datesOf r) x.write := by
  cases hr with
  | word htext _ => exact absurd htext hu
  | bounds _ _ hreadable =>
    exact readRange_tokens hu fun x hx => (hreadable x hx).isItem_write

theorem readRange_word (hr : r.Readable u.declared) (hu : u.declared = some .text) :
    u.readRange r.write = .ok r := by
  cases hr with
  | @word s _ _ =>
    rw [readRange, if_pos hu, Range.write, Endpoint.write, String.ofList_toList]
  | bounds htext _ _ => exact absurd hu htext

/-- A range that can be written without loss is read from its own text. -/
theorem readRange_write (hr : r.Readable u.declared)
    (hdates : u.type? = some .date → HoldsDates r) (hprint : r.Printable) :
    u.readRange r.write = .ok r := by
  by_cases hu : u.declared = some .text
  · exact readRange_word hr hu
  · rw [readRange_eq hr hu]
    refine Range.traverse_eq_ok hr.uniform fun x hx => ?_
    have hecho := Endpoint.echo_of_printable (hprint x hx)
    rw [readEndpoint_datesOf hr hu hdates hx, hecho, if_neg]
    rintro ⟨hdate, htype⟩
    exact htype (holdsDates_of_datesOf hr hdates hdate x hx)

/-- What is read from the text of a range can be written without loss, has endpoints if the range
has, and holds dates only if the range does. -/
theorem of_readRange_write (hr : r.Readable u.declared)
    (hdates : u.type? = some .date → HoldsDates r) {s : Range}
    (h : u.readRange r.write = .ok s) :
    s.Printable ∧ s.Uniform ∧ (s.type? = none → r.type? = none) ∧
      (s.type? = some .date → r.type? = some .date) := by
  by_cases hu : u.declared = some .text
  · rw [readRange_word hr hu] at h
    cases h
    refine ⟨?_, hr.uniform, id, id⟩
    cases hr with
    | word _ _ =>
      intro x hx
      rw [List.mem_singleton.1 hx]
      exact trivial
    | bounds htext _ _ => exact absurd hu htext
  · rw [readRange_eq hr hu] at h
    obtain ⟨huniform, hmem, hnil⟩ := Range.of_traverse h
    have hecho : ∀ y ∈ s.endpoints, ∃ x ∈ r.endpoints, x.echo = y := by
      intro y hy
      obtain ⟨x, hx, hread⟩ := hmem y hy
      rw [readEndpoint_datesOf hr hu hdates hx] at hread
      split at hread
      · cases hread
      · exact ⟨x, hx, Except.ok.inj hread⟩
    refine ⟨fun y hy => ?_, huniform, fun hnone => ?_, fun hdate => ?_⟩
    · obtain ⟨x, -, rfl⟩ := hecho y hy
      exact x.printable_echo
    · exact Range.type?_eq_none.2 (hnil (Range.type?_eq_none.1 hnone))
    · have hne : s.endpoints ≠ [] := by
        intro hnil
        rw [Range.type?_eq_none.2 hnil] at hdate
        cases hdate
      obtain ⟨y, ys, hys⟩ := List.exists_cons_of_ne_nil hne
      have hy : y ∈ s.endpoints := by
        rw [hys]
        exact List.mem_cons_self
      obtain ⟨x, hx, rfl⟩ := hecho y hy
      rw [Range.type?_of_mem huniform hy, Option.some.injEq] at hdate
      rw [Range.type?_of_mem hr.uniform hx, Endpoint.echo_type_date hdate]

end Fitting

end RangeList

end SkyDiscovery
