import SkyDiscovery.Proofs.Number.Double
import SkyDiscovery.Proofs.Number.Numeral
import SkyDiscovery.Proofs.Text.Split
import SkyDiscovery.Record.Synthesis

/-!
# The description of the axes of an image

The lengths of the axes that count are written between blanks, and so are the types of those that
have one.  The two lists go together by position only: a type stands at the place of its axis unless
an axis without a type comes before it.

* `ofRow_eq`: the axes of a row, by their numbers.
* `isDegenerate_iff`: the lengths that do not count.
* `aligned_filterMap_iff`: when the values that a list has stand at the places of their elements.
* `descriptors_of_plain`: how the two lists are read back.
-/

namespace SkyDiscovery

/-- A column that is missing, or holds a number or a text without blanks. -/
def Json.IsPlain : Option Json → Prop
  | none | some null | some (number _) => True
  | some (text s) => ∀ c ∈ s.toList, Text.isBlank c = false
  | _ => False

instance : DecidablePred Json.IsPlain
  | none | some .null | some (.number _) => inferInstanceAs (Decidable True)
  | some (.text s) => inferInstanceAs (Decidable (∀ c ∈ s.toList, Text.isBlank c = false))
  | some (.bool _) | some (.array _) | some (.object _) => inferInstanceAs (Decidable False)

/-- The text of a plain column holds no blank. -/
theorem Json.not_isBlank_of_isPlain {x : Option Json} (h : IsPlain x) {s : String}
    (hs : x.bind asText? = some s) : ∀ c ∈ s.toList, Text.isBlank c = false := by
  match x, h with
  | some (.text _), h =>
    cases hs
    exact h
  | some (.number n), _ =>
    cases hs
    rw [compact, String.toList_ofList]
    cases n with
    | integer n => exact not_isBlank_of_mem_signedDigits
    | real x => exact Layout.not_isBlank_of_mem_write .document _

namespace ImageAxis

/-! ## Lengths that do not count -/

/-- The text is read as the number 0 or as the number 1. -/
def IsZeroOrOne (cs : List Char) : Prop :=
  ∃ x, Binary64.read cs = some x ∧ x.isFinite = true ∧ (x.toRat = 0 ∨ x.toRat = 1)

theorem isDegenerate_iff (cs : List Char) : isDegenerate cs = true ↔ IsZeroOrOne cs := by
  have hzero : Float64.value 0.0 = 0 := by
    simpa using Float64.value_eq (n := 0) (by decide +kernel)
  have hone : Float64.value 1.0 = 1 := by
    simpa using Float64.value_eq (n := 1) (by decide +kernel)
  unfold isDegenerate IsZeroOrOne
  cases hread : Binary64.read cs with
  | none => simp
  | some x =>
    by_cases hfinite : x.isFinite = true
    · have hx : x.toFloat.isFinite = true := by rw [Binary64.isFinite_toFloat, hfinite]
      have hvalue : Float64.value x.toFloat = x.toRat := by
        rw [Float64.value, Binary64.ofFloat_toFloat hfinite]
      have hequal : (x.toFloat == 0.0 || x.toFloat == 1.0) = true ↔ x.toRat = 0 ∨ x.toRat = 1 := by
        rw [Bool.or_eq_true, Float64.beq_iff hx (by decide), Float64.beq_iff hx (by decide), hvalue,
          hzero, hone]
        norm_cast
      simp [hequal, hfinite]
    · have hx : ¬ x.toFloat.isFinite = true := by rwa [Binary64.isFinite_toFloat]
      have hnotZero := Float64.beq_of_not_isFinite hx (by decide : (0.0 : Float).isFinite)
      have hnotOne := Float64.beq_of_not_isFinite hx (by decide : (1.0 : Float).isFinite)
      simp [hnotZero, hnotOne, hfinite]

/-! ## The axes of a row -/

section

variable (t : TableMapping) (row : Row)

def numbers : List String := ["1", "2", "3", "4"]

/-- The text of the length of an axis. -/
def lengthText? (n : String) : Option String :=
  row.text? (t.column ("im_naxis" ++ n))

/-- The text of the type of an axis. -/
def typeText? (n : String) : Option String :=
  row.text? (t.column ("im_wcsaxes" ++ n))

/-- Of the axes before the first without a length, those longer than one pixel. -/
def countedAmong (ns : List String) : List String :=
  (ns.takeWhile fun n => (lengthText? t row n).isSome).filter fun n =>
    !(lengthText? t row n).any fun s => isDegenerate (Text.trim s.toList)

/-- The numbers of the axes that count. -/
def counted : List String :=
  countedAmong t row numbers

theorem ofNumbers_eq (ns : List String) :
    (ofNumbers t row ns).map (fun a => (some a.length, a.type)) =
      (countedAmong t row ns).map fun n =>
        ((lengthText? t row n).map Text.trimmed, (typeText? t row n).map Text.trimmed) := by
  induction ns with
  | nil => rfl
  | cons n ns ih =>
    cases hlength : lengthText? t row n with
    | none =>
      have hstop : ofNumbers t row (n :: ns) = [] := by
        rw [lengthText?] at hlength
        rw [ofNumbers, hlength]
      rw [hstop, countedAmong, List.takeWhile_cons_of_neg (by simp [hlength])]
      rfl
    | some s =>
      have hstep : ofNumbers t row (n :: ns) =
          if isDegenerate (Text.trim s.toList) then ofNumbers t row ns
          else ⟨Text.trimmed s, (typeText? t row n).map Text.trimmed⟩ :: ofNumbers t row ns := by
        rw [lengthText?] at hlength
        rw [ofNumbers, hlength]
        rfl
      have hrest : countedAmong t row (n :: ns) =
          if isDegenerate (Text.trim s.toList) then countedAmong t row ns
          else n :: countedAmong t row ns := by
        rw [countedAmong, List.takeWhile_cons_of_pos (by simp [hlength]), List.filter_cons, hlength,
          Option.any_some]
        cases isDegenerate (Text.trim s.toList) <;> rfl
      rw [hstep, hrest]
      split
      · exact ih
      · rw [List.map_cons, List.map_cons, ih, hlength]
        rfl

/-- Each of the words is the type of the axis that counts at its place. -/
def IsAligned (ws : List String) : Prop :=
  ∀ (k : Nat) (w : String), ws[k]? = some w → (counted t row)[k]?.bind (typeText? t row) = some w

theorem mem_numbers_of_mem_counted {n : String} (h : n ∈ counted t row) : n ∈ numbers :=
  (List.takeWhile_sublist _).subset (List.mem_of_mem_filter h)

end

/-! ## Lists by position -/

/-- The values that the elements of a list have stand at the places of the elements if no element
without a value comes before one with a value. -/
theorem aligned_filterMap_iff {α β : Type} (f : α → Option β) (xs : List α) :
    (∀ (k : Nat) (b : β), (xs.filterMap f)[k]? = some b → xs[k]?.bind f = some b) ↔
      xs.Pairwise fun x y => (f y).isSome → (f x).isSome := by
  induction xs with
  | nil => simp
  | cons x xs ih =>
    rw [List.pairwise_cons, ← ih]
    cases hx : f x with
    | some b =>
      rw [List.filterMap_cons_some hx]
      constructor
      · intro h
        exact ⟨fun _ _ _ => rfl, fun k => h (k + 1)⟩
      · rintro ⟨-, h⟩ k
        cases k with
        | zero => simp [hx]
        | succ k => exact h k
    | none =>
      have hnone : (∀ y ∈ xs, (f y).isSome → (none : Option β).isSome) ↔ xs.filterMap f = [] := by
        simp [List.filterMap_eq_nil_iff]
      rw [List.filterMap_cons_none hx, hnone]
      constructor
      · intro h
        -- the first value would stand at the place of an element without one
        have hempty : xs.filterMap f = [] := by
          cases hvalues : xs.filterMap f with
          | nil => rfl
          | cons b bs =>
            have hfirst := h 0 b (by rw [hvalues]; rfl)
            rw [List.getElem?_cons_zero, Option.bind_some, hx] at hfirst
            cases hfirst
        refine ⟨hempty, fun k b hk => ?_⟩
        rw [hempty] at hk
        cases hk
      · rintro ⟨h, -⟩ k b hk
        rw [h] at hk
        cases hk

/-- What stands between the blanks of a list. -/
def entries (s : String) : List String :=
  (s.toList.splitOn ' ').map String.ofList

theorem entries_intercalate {ws : List String} (hne : ws ≠ []) (h : ∀ w ∈ ws, ' ' ∉ w.toList) :
    entries (" ".intercalate ws) = ws := by
  have hwords : ∀ w ∈ ws.map String.toList, ' ' ∉ w := by
    simpa using h
  have hsplit := List.splitOn_intercalate ' ' hwords (by simpa using hne)
  have hblank : " ".toList = [' '] := rfl
  rw [entries, String.toList_intercalate, hblank, hsplit, List.map_map]
  simp [Function.comp_def]

/-! ## Rows with plain columns -/

section

variable {t : TableMapping} {row : Row}

/-- The lengths and types of the axes are missing, numbers, or texts without blanks. -/
def HasPlainAxes (t : TableMapping) (row : Row) : Prop :=
  ∀ n ∈ numbers, Json.IsPlain (row.get? (t.column ("im_naxis" ++ n))) ∧
    Json.IsPlain (row.get? (t.column ("im_wcsaxes" ++ n)))

instance : Decidable (HasPlainAxes t row) :=
  inferInstanceAs (Decidable (∀ n ∈ numbers, _ ∧ _))

theorem not_isBlank_of_lengthText? (h : HasPlainAxes t row) {n s : String} (hn : n ∈ counted t row)
    (hs : lengthText? t row n = some s) : ∀ c ∈ s.toList, Text.isBlank c = false :=
  Json.not_isBlank_of_isPlain (h n (mem_numbers_of_mem_counted t row hn)).1 hs

theorem not_isBlank_of_typeText? (h : HasPlainAxes t row) {n s : String} (hn : n ∈ counted t row)
    (hs : typeText? t row n = some s) : ∀ c ∈ s.toList, Text.isBlank c = false :=
  Json.not_isBlank_of_isPlain (h n (mem_numbers_of_mem_counted t row hn)).2 hs

theorem map_trimmed_eq_self {s? : Option String}
    (h : ∀ s, s? = some s → ∀ c ∈ s.toList, Text.isBlank c = false) :
    s?.map Text.trimmed = s? := by
  cases s? with
  | none => rfl
  | some s => exact congrArg some (Text.trimmed_of_no_blank (h s rfl))

theorem ofRow_eq (h : HasPlainAxes t row) :
    (ofRow t row).map (fun a => (some a.length, a.type)) =
      (counted t row).map fun n => (lengthText? t row n, typeText? t row n) := by
  have hrow : ofRow t row = ofNumbers t row numbers := rfl
  rw [hrow, ofNumbers_eq]
  refine List.map_congr_left fun n hn => ?_
  rw [map_trimmed_eq_self fun _ => not_isBlank_of_lengthText? h hn,
    map_trimmed_eq_self fun _ => not_isBlank_of_typeText? h hn]

theorem map_length_ofRow (h : HasPlainAxes t row) :
    ((ofRow t row).map ImageAxis.length).map some = (counted t row).map (lengthText? t row) := by
  simpa [List.map_map, Function.comp_def] using congrArg (List.map Prod.fst) (ofRow_eq h)

theorem filterMap_type_ofRow (h : HasPlainAxes t row) :
    (ofRow t row).filterMap ImageAxis.type = (counted t row).filterMap (typeText? t row) := by
  simpa [List.filterMap_map, Function.comp_def] using
    congrArg (List.filterMap Prod.snd) (ofRow_eq h)

theorem exists_of_mem_lengths (h : HasPlainAxes t row) {w : String}
    (hw : w ∈ (ofRow t row).map ImageAxis.length) :
    ∃ n ∈ counted t row, lengthText? t row n = some w := by
  have hmem : some w ∈ ((ofRow t row).map ImageAxis.length).map some := List.mem_map_of_mem hw
  rw [map_length_ofRow h] at hmem
  exact List.mem_map.1 hmem

theorem not_isZeroOrOne_of_mem_lengths (h : HasPlainAxes t row) {w : String}
    (hw : w ∈ (ofRow t row).map ImageAxis.length) : ¬ IsZeroOrOne w.toList := by
  obtain ⟨n, hn, htext⟩ := exists_of_mem_lengths h hw
  have hkept := List.of_mem_filter hn
  have htrim := Text.trim_of_no_blank (not_isBlank_of_lengthText? h hn htext)
  rw [htext, Option.any_some, htrim] at hkept
  rw [← isDegenerate_iff]
  simpa using hkept

theorem entries_lengths (h : HasPlainAxes t row) (hne : ofRow t row ≠ []) :
    entries (lengths (ofRow t row)) = (ofRow t row).map ImageAxis.length := by
  refine entries_intercalate (by simpa using hne) fun w hw hblank => ?_
  obtain ⟨n, hn, htext⟩ := exists_of_mem_lengths h hw
  cases not_isBlank_of_lengthText? h hn htext ' ' hblank

theorem entries_types (h : HasPlainAxes t row) (hne : types (ofRow t row) ≠ "") :
    entries (types (ofRow t row)) = (counted t row).filterMap (typeText? t row) := by
  unfold types at *
  rw [filterMap_type_ofRow h] at *
  refine entries_intercalate ?_ fun w hw hblank => ?_
  · intro hempty
    rw [hempty] at hne
    exact hne rfl
  · obtain ⟨n, hn, htext⟩ := List.mem_filterMap.1 hw
    cases not_isBlank_of_typeText? h hn htext ' ' hblank

/-- The list of lengths has an entry for each axis that counts, none of them 0 or 1, and the list of
types one for each of these axes that has a type, in order.  So the types stand at the places of
their axes if no axis without a type comes before one with a type. -/
theorem descriptors_of_plain (h : HasPlainAxes t row) :
    (ofRow t row = [] → lengths (ofRow t row) = "") ∧
      (ofRow t row ≠ [] → (entries (lengths (ofRow t row))).length = (ofRow t row).length ∧
        (entries (lengths (ofRow t row))).map some = (counted t row).map (lengthText? t row)) ∧
      (∀ w ∈ entries (lengths (ofRow t row)), ¬ IsZeroOrOne w.toList) ∧
      (types (ofRow t row) ≠ "" →
        entries (types (ofRow t row)) = (counted t row).filterMap (typeText? t row) ∧
        (IsAligned t row (entries (types (ofRow t row))) ↔
          (counted t row).Pairwise fun n m =>
            (typeText? t row m).isSome → (typeText? t row n).isSome)) := by
  refine ⟨?_, ?_, ?_, ?_⟩
  · intro hempty
    rw [hempty]
    rfl
  · intro hne
    rw [entries_lengths h hne, List.length_map]
    exact ⟨rfl, map_length_ofRow h⟩
  · intro w hw
    by_cases hempty : ofRow t row = []
    · rw [hempty] at hw
      obtain rfl : w = "" := by simpa [entries, lengths] using hw
      rintro ⟨x, hx, -⟩
      cases hx
    · rw [entries_lengths h hempty] at hw
      exact not_isZeroOrOne_of_mem_lengths h hw
  · intro hne
    rw [entries_types h hne]
    exact ⟨rfl, aligned_filterMap_iff _ _⟩

end

/-- Of three axes the second has one pixel. -/
def flatRow : Row :=
  .ofList [("im_naxis1", .ofNat 2048), ("im_naxis2", .ofNat 1), ("im_naxis3", .text "512"),
    ("im_wcsaxes1", .text "RA---TAN"), ("im_wcsaxes2", .text "DEC--TAN"),
    ("im_wcsaxes3", .text "WAVE")]

theorem descriptors_of_plain_flat :
    HasPlainAxes (.ofColumns ∅) flatRow ∧ counted (.ofColumns ∅) flatRow = ["1", "3"] ∧
      types (ofRow (.ofColumns ∅) flatRow) = "RA---TAN WAVE" ∧
      (entries (lengths (ofRow (.ofColumns ∅) flatRow))).map some = [some "2048", some "512"] := by
  have hplain : HasPlainAxes (.ofColumns ∅) flatRow := by decide +kernel
  have hcounted : counted (.ofColumns ∅) flatRow = ["1", "3"] := by decide +kernel
  refine ⟨hplain, hcounted, by decide +kernel, ?_⟩
  rw [((descriptors_of_plain hplain).2.1 (by decide +kernel)).2, hcounted]
  decide +kernel

/-- Of two axes only the second has a type. -/
def halfTypedRow : Row :=
  .ofList [("im_naxis1", .ofNat 100), ("im_naxis2", .ofNat 200), ("im_wcsaxes2", .text "DEC--TAN")]

/-- The type of the second axis stands at the place of the first. -/
theorem type_out_of_place :
    HasPlainAxes (.ofColumns ∅) halfTypedRow ∧
      lengths (ofRow (.ofColumns ∅) halfTypedRow) = "100 200" ∧
      types (ofRow (.ofColumns ∅) halfTypedRow) = "DEC--TAN" ∧
      ¬ IsAligned (.ofColumns ∅) halfTypedRow
        (entries (types (ofRow (.ofColumns ∅) halfTypedRow))) := by
  refine ⟨by decide +kernel, by decide +kernel, by decide +kernel, fun haligned => ?_⟩
  have hfirst := haligned 0 "DEC--TAN" (by decide +kernel)
  have huntyped : (counted (.ofColumns ∅) halfTypedRow)[0]?.bind
      (typeText? (.ofColumns ∅) halfTypedRow) = none := by
    decide +kernel
  rw [huntyped] at hfirst
  cases hfirst

end ImageAxis

end SkyDiscovery
