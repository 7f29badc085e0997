import SkyDiscovery.Proofs.Calendar.RoundTrip
import SkyDiscovery.Range.RangeList

/-!
# Endpoints read from their own text

An endpoint is written as a token: a text without blanks at its ends and without the marks of a
range list.  Reading the token of a number or a date gives the number or the date, cut to
milliseconds, or else the token itself as a text, or nothing.

* `Endpoint.isItem_write`: the text of an endpoint is a token.
* `Endpoint.readable_of_readEndpoint`: what can be said of an endpoint that was read.
* `Endpoint.readEndpoint_write`: an endpoint is read from its own text as its echo or not at all.
-/

namespace SkyDiscovery

open Text Calendar

/-- The separators of ranges and properties. -/
def isListMark (c : Char) : Bool :=
  c == ',' || c == ';'

/-- The separators of ranges, properties and bounds. -/
def isRangeMark (c : Char) : Bool :=
  isListMark c || c == '/'

/-! ## The text of numbers and dates -/

theorem not_isRangeMark_of_isDigit {c : Char} (h : c.isDigit) : isRangeMark c = false := by
  rw [Bool.eq_false_iff]
  intro hmark
  simp only [isRangeMark, isListMark, Bool.or_eq_true, beq_iff_eq] at hmark
  obtain (rfl | rfl) | rfl := hmark <;> exact absurd h (by decide)

theorem isItem_of_mem_cases {w : List Char} (hne : w ≠ []) {cs : List Char}
    (hcs : ∀ c ∈ cs, isBlank c = false ∧ isRangeMark c = false)
    (h : ∀ c ∈ w, c.isDigit ∨ c ∈ cs) : IsItem isRangeMark w := by
  refine isItem_of_no_blank hne fun c hc => ?_
  rcases h c hc with hdigit | hmem
  · exact ⟨not_isBlank_of_isDigit hdigit, not_isRangeMark_of_isDigit hdigit⟩
  · exact hcs c hmem

theorem write_plain_ne_nil (x : Binary64) : Layout.plain.write x ≠ [] := by
  rcases write_plain_cases x with h | ⟨body, hbody, h⟩
  · rw [h]
    decide
  · have hne : body ≠ [] := by
      rcases hbody with hbody | rfl
      · obtain ⟨d, ds, rfl, -⟩ := hbody.head
        exact List.cons_ne_nil d ds
      · decide
    rcases h with h | h
    · rwa [h]
    · rw [h]
      exact List.cons_ne_nil _ _

theorem isItem_write_number (x : Binary64) : IsItem isRangeMark (Layout.plain.write x) :=
  isItem_of_mem_cases (write_plain_ne_nil x) (by decide) fun _ hc => mem_write_plain hc

theorem isItem_write_date (t : Instant) : IsItem isRangeMark t.write :=
  isItem_of_mem_cases (List.ne_nil_of_mem t.zulu_mem_write) (by decide)
    fun _ hc => Instant.mem_write hc

theorem not_looksLikeDate_write_number (x : Binary64) :
    looksLikeDate (Layout.plain.write x) = false := by
  rw [Bool.eq_false_iff]
  intro hlooks
  obtain ⟨d, ds, hds, hd, hhyphen⟩ := exists_of_looksLikeDate hlooks
  rw [(isItem_write_number x).trimmed] at hds
  rcases write_plain_cases x with h | ⟨body, hbody, h | h⟩
  · rw [h] at hds
    rw [← (List.cons.inj hds).1] at hd
    exact absurd hd (by decide)
  · have hmem : '-' ∈ body := by
      rw [← h, hds]
      exact List.mem_cons_of_mem _ hhyphen
    rcases hbody with hbody | rfl
    · rcases hbody.isDigit_or_point hmem with h | h <;> exact absurd h (by decide)
    · exact absurd hmem (by decide)
  · rw [h] at hds
    rw [← (List.cons.inj hds).1] at hd
    exact absurd hd (by decide)

/-! ## Numbers and words -/

theorem any_isDigit_write {x : Binary64} (h : x.isFinite) :
    (Layout.plain.write x).any Char.isDigit = true := by
  have hnan : x.isNaN = false := by
    simp only [Binary64.isFinite, Binary64.isNaN, decide_eq_true_eq, decide_eq_false_iff_not] at *
    omega
  obtain ⟨d, ds, hds, hd⟩ := (plainNumeral_writeMagnitude x.magnitude).head
  rw [Layout.write, hnan, if_neg (by decide), h, if_pos rfl, hds]
  split <;> simp [hd]

theorem no_isDigit_write {x : Binary64} (h : x.isFinite = false) :
    (Layout.plain.write x).any Char.isDigit = false := by
  have hbody : (if x.isFinite then Layout.plain.writeMagnitude x.magnitude else "inf".toList) =
      "inf".toList := if_neg (Bool.eq_false_iff.1 h)
  rw [Layout.write, hbody]
  split
  · decide
  · dsimp only
    cases x.isNegative <;> decide

theorem readExponent_of_zulu {cs : List Char} (hz : 'Z' ∈ cs) : Decimal.readExponent cs = none := by
  have hnat : ∀ cs : List Char, 'Z' ∈ cs → readNat cs = none := by
    intro cs hz
    refine if_neg fun h => ?_
    have hdigit := List.all_eq_true.1 h.2 _ hz
    exact absurd hdigit (by decide)
  cases cs with
  | nil => cases hz
  | cons c cs =>
    refine ite_eq_right_iff.2 fun he => ?_
    have hz : 'Z' ∈ cs := by
      rcases List.mem_cons.1 hz with rfl | hz
      · rcases he with he | he <;> cases he
      · exact hz
    unfold readInt
    split
    · rw [hnat _ (by simpa using hz)]
      rfl
    · rw [hnat _ (by simpa using hz)]
      rfl
    · rw [hnat _ hz]
      rfl

theorem decimalRead_of_zulu {cs : List Char} (hz : 'Z' ∈ cs) : Decimal.read cs = none := by
  have hrest : 'Z' ∈ cs.dropWhile Char.isDigit := zulu_of_dropWhile (by decide) hz
  unfold Decimal.read
  generalize cs.dropWhile Char.isDigit = rest at hrest
  dsimp only
  split
  · next r =>
    have hz : 'Z' ∈ r.dropWhile Char.isDigit := zulu_of_dropWhile (by decide) (by simpa using hrest)
    rw [readExponent_of_zulu hz, Option.map_none, ite_self]
  · rw [readExponent_of_zulu hrest, Option.map_none, ite_self]

/-- No numeral and no word for a number holds a `Z`. -/
theorem read_of_zulu {cs : List Char} (hz : 'Z' ∈ cs) : Binary64.read cs = none := by
  have hunsigned : ∀ negative, ∀ cs : List Char, 'Z' ∈ cs →
      Binary64.readUnsigned negative cs = none := by
    intro negative cs hz
    have hlower : 'z' ∈ cs.map Char.toLower := List.mem_map.2 ⟨'Z', hz, by decide⟩
    have hword : ∀ w : List Char, 'z' ∉ w → cs.map Char.toLower ≠ w := fun w hw h => hw (h ▸ hlower)
    rw [Binary64.readUnsigned, decimalRead_of_zulu hz, Binary64.readWord]
    rw [if_neg (not_or.2 ⟨hword _ (by decide), hword _ (by decide)⟩), if_neg (hword _ (by decide))]
  unfold Binary64.read
  split
  · next hmem => exact hunsigned _ _ (by simpa using hz)
  · next hmem => exact hunsigned _ _ (by simpa using hz)
  · exact hunsigned _ _ hz

namespace Endpoint

/-! ## Echoes -/

/-- The endpoint can be written without loss: a number is finite, and a date is one of the years 0
to 9999 and has a whole number of milliseconds. -/
def Printable : Endpoint → Prop
  | number x => x.isFinite = true
  | text _ => True
  | date t => t.nanos % 1_000_000 = 0 ∧ t.HasPlainYear

instance : DecidablePred Printable
  | number x => inferInstanceAs (Decidable (x.isFinite = true))
  | text _ => inferInstanceAs (Decidable True)
  | date t => inferInstanceAs (Decidable (t.nanos % 1_000_000 = 0 ∧ t.HasPlainYear))

/-- What an endpoint becomes when it is written and read. -/
def echo : Endpoint → Endpoint
  | number x => if x.isFinite then number x else text (String.ofList (Layout.plain.write x))
  | text s => text s
  | date t => if t.HasPlainYear then date t.toMillis else text (String.ofList t.write)

theorem echo_of_printable {x : Endpoint} (h : x.Printable) : x.echo = x := by
  cases x with
  | number x => exact if_pos h
  | text s => rfl
  | date t =>
    obtain ⟨hnanos, hyear⟩ := h
    rw [echo, if_pos hyear, t.toMillis_eq_self_iff.2 hnanos]

/-- Whatever an endpoint becomes can be written without loss. -/
theorem printable_echo (x : Endpoint) : x.echo.Printable := by
  cases x with
  | number x =>
    rw [echo]
    split
    · next h => exact h
    · exact trivial
  | text s => exact trivial
  | date t =>
    rw [echo]
    split
    · next h => exact ⟨Nat.mul_mod_left _ _, h⟩
    · exact trivial

theorem echo_type_date {x : Endpoint} (h : x.echo.type = .date) : x.type = .date := by
  cases x with
  | number x =>
    rw [echo] at h
    split at h <;> cases h
  | text s => cases h
  | date t => rfl

/-- An endpoint equal to one that can be written without loss can be as well. -/
theorem printable_of_same {x y : Endpoint} (h : x.same y = true) (hy : y.Printable) :
    x.Printable := by
  cases x with
  | number x =>
    cases y with
    | number y =>
      simp only [same, Binary64.sameNumber, Bool.and_eq_true, Bool.or_eq_true, beq_iff_eq] at h
      rcases h.2 with rfl | ⟨hx, hzero⟩
      · exact hy
      · simp [Printable, Binary64.isFinite, hx, Binary64.infinite]
    | text t => cases h
    | date t => cases h
  | text s => exact trivial
  | date s =>
    cases y with
    | date t =>
      have heq : Endpoint.date s = Endpoint.date t := by simpa [same] using h
      rw [heq]
      exact hy
    | number y => cases h
    | text t => cases h

theorem same_self {x : Endpoint} (h : x.Printable) : x.same x = true := by
  cases x with
  | number x =>
    have hnan : x.isNaN = false := by
      simp only [Printable, Binary64.isFinite, Binary64.isNaN, decide_eq_true_eq,
        decide_eq_false_iff_not] at *
      omega
    simp [same, Binary64.sameNumber, hnan]
  | text s => exact beq_self_eq_true _
  | date t => exact beq_self_eq_true _

/-! ## Endpoints that were read -/

/-- What is known of an endpoint of a list that was read under a declaration other than of texts. -/
inductive Readable (declared : Option ValueType) : Endpoint → Prop where
  | number (x : Binary64) : declared ≠ some .date → Readable declared (number x)
  | date {t : Instant} : t.Proper → declared ≠ some .numeric → Readable declared (date t)
  | text {s : String} : IsItem isRangeMark s.toList → infer s.toList = text s →
      declared ≠ some .date → (declared = none → looksLikeDate s.toList = false) →
      Readable declared (text s)

/-- The text of an endpoint is a token. -/
theorem Readable.isItem_write {declared : Option ValueType} {x : Endpoint}
    (h : x.Readable declared) : IsItem isRangeMark x.write := by
  cases h with
  | number x _ => exact isItem_write_number x
  | @date t _ _ => exact isItem_write_date t
  | text hitem _ _ _ => exact hitem

theorem infer_cases (token : List Char) :
    (∃ x, infer token = number x) ∨ infer token = text (String.ofList token) := by
  unfold infer
  split
  · split
    · exact Or.inl ⟨_, rfl⟩
    · exact Or.inr rfl
  · exact Or.inr rfl

theorem readable_of_readEndpoint {declared : Option ValueType} {asDate : Bool} {token : List Char}
    {x : Endpoint} (h : RangeList.readEndpoint asDate token = .ok x)
    (htoken : IsItem isRangeMark token)
    (hdate : asDate = true → declared ≠ some .numeric)
    (hother : asDate = false →
      declared ≠ some .date ∧ (declared = none → looksLikeDate token = false)) :
    x.Readable declared := by
  unfold RangeList.readEndpoint at h
  cases asDate with
  | true =>
    rw [if_pos rfl] at h
    split at h
    · next t hread =>
      cases h
      exact .date (proper_of_readDate hread) (hdate rfl)
    · cases h
  | false =>
    obtain ⟨hdeclared, hlooks⟩ := hother rfl
    rw [if_neg (by decide)] at h
    cases h
    rcases infer_cases token with ⟨x, hx⟩ | htext
    · rw [hx]
      exact .number x hdeclared
    · rw [htext]
      refine .text ?_ ?_ hdeclared ?_ <;> rw [String.toList_ofList]
      · exact htoken
      · exact htext
      · exact hlooks

/-! ## Reading the text of an endpoint -/

/-- An endpoint is read from its own text as its echo, unless it must be a date and cannot. -/
theorem readEndpoint_write {declared : Option ValueType} {x : Endpoint} (h : x.Readable declared)
    {asDate : Bool} (hdate : asDate = true → x.type = .date)
    (hother : asDate = false → ∀ t, x = date t → ¬ t.HasPlainYear) :
    RangeList.readEndpoint asDate x.write =
      if asDate = true ∧ x.echo.type ≠ .date then .error (.invalidDate (String.ofList x.write))
      else .ok x.echo := by
  cases h with
  | number x _ =>
    obtain rfl : asDate = false := by
      cases asDate with
      | true => cases hdate rfl
      | false => rfl
    rw [if_neg (by simp), RangeList.readEndpoint, if_neg (by decide), write, echo]
    cases hfinite : x.isFinite with
    | true =>
      rw [infer, if_pos (any_isDigit_write hfinite), Binary64.read_write hfinite]
      rfl
    | false =>
      rw [infer, if_neg (Bool.eq_false_iff.1 (no_isDigit_write hfinite))]
      rfl
  | @text s _ hinfer _ _ =>
    obtain rfl : asDate = false := by
      cases asDate with
      | true => cases hdate rfl
      | false => rfl
    rw [if_neg (by simp), RangeList.readEndpoint, if_neg (by decide), write, hinfer]
    rfl
  | @date t hproper _ =>
    by_cases hyear : t.HasPlainYear
    · obtain rfl : asDate = true := by
        cases asDate with
        | true => rfl
        | false => exact absurd hyear (hother rfl t rfl)
      have htype : (date t).echo = date t.toMillis := if_pos hyear
      rw [htype, if_neg (by simp [type]), RangeList.readEndpoint, if_pos rfl, write,
        Instant.readDate_write hproper hyear]
    · have htype : (date t).echo = text (String.ofList t.write) := if_neg hyear
      rw [htype]
      cases asDate with
      | true =>
        rw [if_pos ⟨rfl, by simp [type]⟩, RangeList.readEndpoint, if_pos rfl, write,
          Instant.readDate_write_of_sign hyear]
      | false =>
        rw [if_neg (by simp), RangeList.readEndpoint, if_neg (by decide), write, infer,
          read_of_zulu t.zulu_mem_write, ite_self]

end Endpoint

end SkyDiscovery
