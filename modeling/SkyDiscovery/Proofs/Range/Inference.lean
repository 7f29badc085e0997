import SkyDiscovery.Proofs.Range.Grammar

/-!
# Tokens of undeclared lists

Where no type is declared, a token is a date if it looks like one and is one, else a number if it
reads as one, else a text.  The three tests are made by three readers, and the reader of dates is
the first: what looks like a date is handed to it and to no other, so that a token which looks like
a date and is none, such as `2010-13`, is refused although it is a text.

* `existsUnique_infers`: every token stands for one endpoint.
* `read_token`: the endpoint is read, except that of a token which looks like a date and is none.
-/

namespace SkyDiscovery.RangeList

open Text Calendar

/-! ## What a token stands for -/

/-- The token has the shape of a date and is the date `t`. -/
def IsDate (w : List Char) (t : Instant) : Prop :=
  looksLikeDate w = true ∧ readDate w = some t

/-- The endpoint that a token stands for where no type is declared. -/
inductive Infers (w : List Char) : Endpoint → Prop where
  | date {t : Instant} : IsDate w t → Infers w (.date t)
  | number {x : Binary64} : (∀ t, ¬ IsDate w t) → IsNumeral w x → Infers w (.number x)
  | word : (∀ t, ¬ IsDate w t) → (∀ x, ¬ IsNumeral w x) → Infers w (.text (String.ofList w))

theorem infers_iff_of_isDate {w : List Char} {t : Instant} (h : IsDate w t) (x : Endpoint) :
    Infers w x ↔ x = .date t := by
  constructor
  · rintro (ht | ⟨hnone, -⟩ | ⟨hnone, -⟩)
    · rw [Option.some.inj (ht.2.symm.trans h.2)]
    · exact absurd h (hnone t)
    · exact absurd h (hnone t)
  · rintro rfl
    exact .date h

/-- What is no date is a number or else a text, as `Endpoint.infer` takes it. -/
theorem infers_iff_of_not_isDate {w : List Char} (h : ∀ t, ¬ IsDate w t) (x : Endpoint) :
    Infers w x ↔ x = .infer w := by
  by_cases hnumber : ∃ y, IsNumeral w y
  · obtain ⟨y, hy⟩ := hnumber
    rw [infer_of_isNumeral hy]
    constructor
    · rintro (ht | ⟨-, hx⟩ | ⟨-, hnone⟩)
      · exact absurd ht (h _)
      · rw [Option.some.inj (hx.2.symm.trans hy.2)]
      · exact absurd hy (hnone y)
    · rintro rfl
      exact .number h hy
  · rw [not_exists] at hnumber
    rw [infer_of_not_isNumeral hnumber]
    constructor
    · rintro (ht | ⟨-, hx⟩ | ⟨-, -⟩)
      · exact absurd ht (h _)
      · exact absurd hx (hnumber _)
      · rfl
    · rintro rfl
      exact .word h hnumber

theorem existsUnique_infers (w : List Char) : ∃! x, Infers w x := by
  by_cases hdate : ∃ t, IsDate w t
  · obtain ⟨t, ht⟩ := hdate
    exact ⟨.date t, (infers_iff_of_isDate ht _).2 rfl, fun y => (infers_iff_of_isDate ht y).1⟩
  · rw [not_exists] at hdate
    exact ⟨.infer w, (infers_iff_of_not_isDate hdate _).2 rfl,
      fun y => (infers_iff_of_not_isDate hdate y).1⟩

/-! ## Shapes of dates and numerals -/

/-- Digits before a hyphen are no numeral: only an exponent may follow them. -/
theorem decimalRead_of_hyphen {ds : List Char} (hds : ∀ c ∈ ds, c.isDigit) (cs : List Char) :
    Decimal.read (ds ++ '-' :: cs) = none := by
  have hexponent : Decimal.readExponent ('-' :: cs) = none := by
    rw [Decimal.readExponent, if_neg (by decide)]
  rw [Decimal.read_append hds (by rintro c ⟨⟩; decide), hexponent, Option.map_none, ite_self]

theorem readWord_of_hyphen (negative : Bool) {cs : List Char} (h : '-' ∈ cs) :
    Binary64.readWord negative cs = none := by
  have hlower : '-' ∈ cs.map Char.toLower := List.mem_map.2 ⟨'-', h, by decide⟩
  have hword : ∀ w : List Char, '-' ∉ w → cs.map Char.toLower ≠ w := fun w hw he => hw (he ▸ hlower)
  rw [Binary64.readWord, if_neg (not_or.2 ⟨hword _ (by decide), hword _ (by decide)⟩),
    if_neg (hword _ (by decide))]

/-- What looks like a date does not read as a number. -/
theorem read_of_looksLikeDate {w : List Char} (hw : trim w = w) (h : looksLikeDate w = true) :
    Binary64.read w = none := by
  rw [looksLikeDate, hw] at h
  split at h
  · next a b c d e f g rest =>
    simp only [Bool.and_eq_true, beq_iff_eq] at h
    obtain ⟨⟨⟨⟨⟨⟨ha, hb⟩, hc⟩, hd⟩, rfl⟩, -⟩, -⟩ := h
    have hyear : ∀ e ∈ [a, b, c, d], e.isDigit := by simp [ha, hb, hc, hd]
    have hdecimal : Decimal.read ([a, b, c, d] ++ '-' :: f :: g :: rest) = none :=
      decimalRead_of_hyphen hyear (f :: g :: rest)
    unfold Binary64.read
    split
    · next hsign =>
      rw [(List.cons.inj hsign).1] at ha
      exact absurd ha (by decide)
    · next hsign =>
      rw [(List.cons.inj hsign).1] at ha
      exact absurd ha (by decide)
    · show Binary64.readUnsigned false ([a, b, c, d] ++ '-' :: f :: g :: rest) = none
      rw [Binary64.readUnsigned, hdecimal]
      exact readWord_of_hyphen false (by simp)
  · cases h

/-! ## Reading a token -/

theorem elementsOf_item {w : List Char} (hw : IsItem isListMark w) : elementsOf w = [w] := by
  have hcomma : IsItem (· == ',') w := hw.mono fun c hc => by simp [isListMark, hc]
  have hitems := @items_intercalate (· == ',') ',' rfl [w] (List.forall_mem_singleton.2 hcomma)
  rwa [List.intercalate_singleton] at hitems

/-- A token by itself is read by the one reader that its shape chooses. -/
theorem readRange_token {s : RangeList} (hs : s.ranges = []) (hdeclared : s.declared = none)
    {w : List Char} (hw : IsItem isRangeMark w) :
    s.readRange w = (readEndpoint (looksLikeDate w) w).map Range.single := by
  have hslash : '/' ∉ w := fun h => absurd (hw.no_stop _ h) (by decide)
  have hdates : s.readsDates w none = looksLikeDate w := by
    rw [readsDates, type?, hs, hdeclared]
    simp
  rw [readRange, hdeclared, if_neg (by decide), splitOn_no_mark hslash, readParts, hw.trimmed,
    hdates]
  cases readEndpoint (looksLikeDate w) w <;> rfl

theorem read_item {w : List Char} (hw : IsItem isRangeMark w) (ordered : Bool) :
    read w none ordered = (readEndpoint (looksLikeDate w) w).map
      fun x => ⟨ordered, none, [.single x], []⟩ := by
  have hitem : IsItem isListMark w := hw.mono fun c hc => by simp [isRangeMark, hc]
  have hmark : ';' ∉ w := fun h => absurd (hw.no_stop _ h) (by decide)
  have hrange := readRange_token (s := empty none ordered) rfl rfl hw
  rw [read, extend, cut_of_not_mem hmark]
  dsimp only
  rw [elementsOf_item hitem, addElements, hrange]
  cases readEndpoint (looksLikeDate w) w with
  | error f => rfl
  | ok x => cases ordered <;> rfl

/-- The token has the shape of a date, but no date is read from it. -/
def IsFalseDate (w : List Char) : Prop :=
  looksLikeDate w = true ∧ readDate w = none

/-- A token of an undeclared list stands for exactly one endpoint, and the list with the endpoint is
read; only a token that looks like a date and is none is refused, and it stands for a text. -/
theorem read_token {w : List Char} (hw : IsItem isRangeMark w) (ordered : Bool) :
    ∃ x, (∀ y, Infers w y ↔ y = x) ∧
      (¬ IsFalseDate w → read w none ordered = .ok ⟨ordered, none, [.single x], []⟩) ∧
      (IsFalseDate w → x = .text (String.ofList w) ∧
        read w none ordered = .error (.invalidDate (String.ofList w))) := by
  rw [read_item hw, readEndpoint]
  cases hlooks : looksLikeDate w with
  | false =>
    have hdate : ∀ t, ¬ IsDate w t := fun t ht => by rw [IsDate, hlooks] at ht; cases ht.1
    refine ⟨_, infers_iff_of_not_isDate hdate, fun _ => rfl, fun h => ?_⟩
    rw [IsFalseDate, hlooks] at h
    cases h.1
  | true =>
    cases hread : readDate w with
    | some t =>
      refine ⟨_, infers_iff_of_isDate ⟨hlooks, hread⟩, fun _ => rfl, fun h => ?_⟩
      rw [IsFalseDate, hread] at h
      cases h.2
    | none =>
      have hdate : ∀ t, ¬ IsDate w t := fun t ht => by rw [IsDate, hread] at ht; cases ht.2
      have hnumber : ∀ x, ¬ IsNumeral w x := fun x hx => by
        rw [IsNumeral, read_of_looksLikeDate hw.trimmed hlooks] at hx
        cases hx.2
      refine ⟨_, infers_iff_of_not_isDate hdate, fun h => absurd ⟨hlooks, hread⟩ h, fun _ => ?_⟩
      exact ⟨infer_of_not_isNumeral hnumber, rfl⟩

instance (w : List Char) : Decidable (IsFalseDate w) :=
  inferInstanceAs (Decidable (_ ∧ _))

/-- The last month of a year is read as a date. -/
theorem read_token_month :
    read "2010-12".toList none true =
      .ok ⟨true, none, [.single (.date ⟨1291161600, 0⟩)], []⟩ := by
  have hitem : IsItem isRangeMark "2010-12".toList := ⟨⟨by decide, by decide⟩, by decide⟩
  obtain ⟨x, hx, hread, -⟩ := read_token hitem true
  have hdate : Infers "2010-12".toList (.date ⟨1291161600, 0⟩) :=
    .date ⟨by decide, by decide +kernel⟩
  obtain rfl := (hx _).1 hdate
  exact hread (by decide +kernel)

/-- A thirteenth month is a text, but is refused as a date. -/
theorem month_that_is_none_is_refused :
    Infers "2010-13".toList (.text "2010-13") ∧
      read "2010-13".toList none true = .error (.invalidDate "2010-13") := by
  constructor
  · refine .word (fun t ht => ?_) fun x hx => ?_
    · have hnone : readDate "2010-13".toList = none := by decide +kernel
      cases hnone.symm.trans ht.2
    · have hnone : Binary64.read "2010-13".toList = none := by decide +kernel
      cases hnone.symm.trans hx.2
  · decide +kernel

end SkyDiscovery.RangeList
