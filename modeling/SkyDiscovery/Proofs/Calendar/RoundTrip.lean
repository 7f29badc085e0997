import SkyDiscovery.Proofs.Calendar.Day
import SkyDiscovery.Proofs.Calendar.Reader
import SkyDiscovery.Proofs.Text.Split

/-!
# Dates read from their own text

The text of an instant has its fields at fixed widths and ends in `Z`.  A year of four digits is
read back, with the nanoseconds cut to milliseconds.  Any other year has a sign before it, which no
reader of a full timestamp accepts.

* `readDate_write`: an instant of the years 0 to 9999 is read from its text to the millisecond.
* `readDate_write_of_sign`: an instant of another year is not read from its text.
* `looksLikeDate_write`: only the texts of the former look like dates.
* `readDate_text`: the round trip of an instant of the years 0 to 9999.
-/

namespace SkyDiscovery.Text

/-! ## Digits of a fixed width -/

theorem isDigit_of_mem_padded {width n : Nat} {c : Char} (h : c ∈ padded width n) : c.isDigit := by
  rcases List.mem_append.1 h with h | h
  · rw [List.eq_of_mem_replicate h]
    decide
  · exact isDigit_of_mem_digits h

theorem length_padded {width n : Nat} (hwidth : 0 < width) (h : n < 10 ^ width) :
    (padded width n).length = width := by
  have hlength : (digits n).length ≤ width :=
    (Nat.length_toDigits_le_iff (by decide) hwidth).2 h
  rw [padded, List.length_append, List.length_replicate]
  omega

theorem valueOfDigits_padded (width n : Nat) : valueOfDigits 0 (padded width n) = n := by
  rw [padded, Decimal.valueOfDigits_append, Decimal.valueOfDigits_zeros, Nat.zero_mul,
    Decimal.valueOfDigits_digits]

end SkyDiscovery.Text

namespace SkyDiscovery.Calendar

open Text

theorem readDigits_padded {width n : Nat} (hwidth : 0 < width) (h : n < 10 ^ width)
    (rest : List Char) : readDigits width width (padded width n ++ rest) = some (n, rest) := by
  have hlength := length_padded hwidth h
  rw [readDigits_append (fun c hc => isDigit_of_mem_padded hc) hlength.ge hlength.le (.inl hlength),
    valueOfDigits_padded]

theorem expect_cons (c : Char) (rest : List Char) : expect c (c :: rest) = some rest :=
  if_pos rfl

namespace Instant

/-! ## The fields of a text -/

/-- The instant without the part of its nanoseconds below a millisecond. -/
def toMillis (t : Instant) : Instant :=
  ⟨t.seconds, t.nanos / 1_000_000 * 1_000_000⟩

/-- The year can be written in four digits. -/
def HasPlainYear (t : Instant) : Prop :=
  0 ≤ t.day.year ∧ t.day.year ≤ 9999

instance (t : Instant) : Decidable t.HasPlainYear :=
  inferInstanceAs (Decidable (_ ∧ _))

/-- The fraction of a second, with the point before it. -/
def writeMillis (t : Instant) : List Char :=
  if t.nanos / 1_000_000 = 0 then [] else '.' :: padded 3 (t.timeOfDay.nanos / 1_000_000)

theorem write_eq (t : Instant) :
    t.write = writeYear t.day.year ++ ('-' :: (padded 2 t.day.month ++ ('-' :: (padded 2 t.day.day ++
      ('T' :: (padded 2 t.timeOfDay.hour ++ (':' :: (padded 2 t.timeOfDay.minute ++
      (':' :: (padded 2 t.timeOfDay.second ++ (t.writeMillis ++ ['Z']))))))))))) := by
  simp only [write, writeMillis, List.append_assoc, List.cons_append]

theorem timeOfDay_bounds {t : Instant} (h : t.Proper) :
    t.timeOfDay.hour ≤ 23 ∧ t.timeOfDay.minute ≤ 59 ∧ t.timeOfDay.second ≤ 60 := by
  obtain ⟨hnanos, -⟩ := h
  unfold timeOfDay
  refine ⟨?_, ?_, ?_⟩ <;> dsimp only <;> omega

theorem day_bounds (t : Instant) : 1 ≤ t.day.month ∧ t.day.month ≤ 12 ∧ 1 ≤ t.day.day ∧
    t.day.day ≤ daysInMonth t.day.year t.day.month ∧ t.day.day ≤ 31 := by
  obtain ⟨hmonth0, hmonth1⟩ := Day.month_ofNumber (t.seconds / 86400)
  obtain ⟨hday0, hday1⟩ := Day.day_ofNumber (t.seconds / 86400)
  refine ⟨hmonth0, hmonth1, hday0, hday1, hday1.trans ?_⟩
  unfold daysInMonth
  split
  · split <;> decide
  · split <;> decide

/-- The characters that dates are written in. -/
theorem mem_write {t : Instant} {c : Char} (h : c ∈ t.write) :
    c.isDigit ∨ c ∈ ['+', '-', 'T', ':', '.', 'Z'] := by
  have hyear : ∀ c ∈ writeYear t.day.year, c.isDigit ∨ c ∈ ['+', '-', 'T', ':', '.', 'Z'] := by
    intro c hc
    unfold writeYear at hc
    split at hc
    · exact Or.inl (isDigit_of_mem_padded hc)
    · rcases List.mem_cons.1 hc with rfl | hc
      · split <;> simp
      · exact Or.inl (isDigit_of_mem_padded hc)
  have hmillis : ∀ c ∈ t.writeMillis, c.isDigit ∨ c ∈ ['+', '-', 'T', ':', '.', 'Z'] := by
    intro c hc
    unfold writeMillis at hc
    split at hc
    · cases hc
    · rcases List.mem_cons.1 hc with rfl | hc
      · simp
      · exact Or.inl (isDigit_of_mem_padded hc)
  have hfield : ∀ n, ∀ c ∈ padded 2 n, c.isDigit ∨ c ∈ ['+', '-', 'T', ':', '.', 'Z'] :=
    fun n c hc => Or.inl (isDigit_of_mem_padded hc)
  rw [write_eq] at h
  simp only [List.mem_append, List.mem_cons, List.not_mem_nil, or_false] at h
  rcases h with h | rfl | h | rfl | h | rfl | h | rfl | h | rfl | h | h | rfl
  · exact hyear c h
  all_goals first
    | exact hfield _ c h
    | exact hmillis c h
    | exact Or.inr (by simp)

theorem zulu_mem_write (t : Instant) : 'Z' ∈ t.write := by
  rw [write_eq]
  simp

theorem trim_write (t : Instant) : trim t.write = t.write := by
  refine trim_of_no_blank fun c hc => ?_
  rcases mem_write hc with hc | hc
  · exact not_isBlank_of_isDigit hc
  · exact (show ∀ c ∈ ['+', '-', 'T', ':', '.', 'Z'], isBlank c = false by decide) c hc

/-! ## Years of four digits -/

theorem readFraction_writeMillis (t : Instant) :
    readFraction (t.writeMillis ++ ['Z']) =
      some (t.nanos % 1_000_000_000 / 1_000_000 * 1_000_000, ['Z']) := by
  unfold writeMillis
  by_cases hzero : t.nanos / 1_000_000 = 0
  · have hnanos : t.nanos % 1_000_000_000 / 1_000_000 * 1_000_000 = 0 := by omega
    rw [if_pos hzero, hnanos]
    rfl
  · have hlength : (padded 3 (t.nanos % 1_000_000_000 / 1_000_000)).length = 3 :=
      length_padded (by decide) (by omega)
    have hstop : ∀ c ∈ ['Z'].head?, c.isDigit = false := by
      rintro c ⟨⟩
      rfl
    have hread : readDigits 1 9 (padded 3 (t.nanos % 1_000_000_000 / 1_000_000) ++ ['Z']) =
        some (t.nanos % 1_000_000_000 / 1_000_000, ['Z']) := by
      rw [readDigits_append (fun c hc => isDigit_of_mem_padded hc) (by omega) (by omega)
        (.inr hstop), valueOfDigits_padded]
    rw [if_neg hzero, List.cons_append]
    simp only [timeOfDay, readFraction, hread, Option.map_some, List.length_append, hlength]
    rfl

theorem finish_fields {t : Instant} (h : t.Proper) (hyear : t.HasPlainYear) :
    finish t.day ⟨t.timeOfDay.hour, t.timeOfDay.minute, t.timeOfDay.second,
      t.nanos % 1_000_000_000 / 1_000_000 * 1_000_000⟩ 0 [] = some t.toMillis := by
  obtain ⟨hhour, hminute, hsecond⟩ := timeOfDay_bounds h
  obtain ⟨hmonth0, hmonth1, hday0, hday1, -⟩ := day_bounds t
  obtain ⟨hyear0, hyear1⟩ := hyear
  obtain ⟨hnanos, hleap⟩ := h
  have hday : t.day.isValid = true := by
    simp only [Day.isValid, Bool.and_eq_true, decide_eq_true_eq]
    unfold Day.firstYear Day.lastYear
    omega
  have htime : (TimeOfDay.mk t.timeOfDay.hour t.timeOfDay.minute t.timeOfDay.second
      (t.nanos % 1_000_000_000 / 1_000_000 * 1_000_000)).isValid = true := by
    simp only [TimeOfDay.isValid, Bool.and_eq_true, decide_eq_true_eq]
    exact ⟨⟨hhour, hminute⟩, hsecond⟩
  have hnumber : t.day.number = t.seconds / 86400 := Day.number_ofNumber _
  rw [finish, hday, htime]
  have hseconds : t.day.number * 86400 + (t.timeOfDay.hour * 3600 + t.timeOfDay.minute * 60 +
      min t.timeOfDay.second 59 : Nat) - 0 = t.seconds := by
    rw [hnumber]
    unfold timeOfDay
    dsimp only
    omega
  have hnanos : (if t.timeOfDay.second = 60 then 1_000_000_000 else 0) +
      t.nanos % 1_000_000_000 / 1_000_000 * 1_000_000 = t.nanos / 1_000_000 * 1_000_000 := by
    unfold timeOfDay
    dsimp only
    split <;> omega
  exact congrArg some (congrArg₂ Instant.mk hseconds hnanos)

/-- A date is read from its own text to the millisecond. -/
theorem readDate_write {t : Instant} (h : t.Proper) (hyear : t.HasPlainYear) :
    readDate t.write = some t.toMillis := by
  obtain ⟨hhour, hminute, hsecond⟩ := timeOfDay_bounds h
  obtain ⟨-, hmonth, -, -, hday⟩ := day_bounds t
  have hyears : ((t.day.year.toNat : Nat) : Int) = t.day.year := Int.toNat_of_nonneg hyear.1
  have hyear4 : t.day.year.toNat < 10 ^ 4 := by
    have := hyear.2
    omega
  rw [readDate_of_zulu (zulu_mem_write t) (trim_write t), write_eq, writeYear,
    if_pos (show 0 ≤ t.day.year ∧ t.day.year ≤ 9999 from hyear)]
  refine Option.bind_eq_some_iff.2 ⟨_, readDigits_padded (by decide) hyear4 _, ?_⟩
  refine Option.bind_eq_some_iff.2 ⟨_, expect_cons _ _, ?_⟩
  refine Option.bind_eq_some_iff.2 ⟨_, readDigits_padded (by decide) (by omega) _, ?_⟩
  refine Option.bind_eq_some_iff.2 ⟨_, expect_cons _ _, ?_⟩
  refine Option.bind_eq_some_iff.2 ⟨_, readDigits_padded (by decide) (by omega) _, ?_⟩
  dsimp only
  rw [if_pos (Or.inl rfl)]
  refine Option.bind_eq_some_iff.2 ⟨_, rfl, ?_⟩
  refine Option.bind_eq_some_iff.2 ⟨_, readDigits_padded (by decide) (by omega) _, ?_⟩
  refine Option.bind_eq_some_iff.2 ⟨_, expect_cons _ _, ?_⟩
  refine Option.bind_eq_some_iff.2 ⟨_, readDigits_padded (by decide) (by omega) _, ?_⟩
  refine Option.bind_eq_some_iff.2 ⟨_, expect_cons _ _, ?_⟩
  refine Option.bind_eq_some_iff.2 ⟨_, readDigits_padded (by decide) (by omega) _, ?_⟩
  refine Option.bind_eq_some_iff.2 ⟨_, readFraction_writeMillis t, ?_⟩
  refine Option.bind_eq_some_iff.2 ⟨(0, []), rfl, ?_⟩
  dsimp only
  rw [hyears]
  exact finish_fields h hyear

/-! ## Other years -/

/-- A year of more than four digits, or before the year 0, has its sign before it. -/
theorem write_of_sign {t : Instant} (h : ¬ t.HasPlainYear) :
    ∃ c cs, t.write = c :: cs ∧ c.isDigit = false := by
  rw [write_eq, writeYear, if_neg (show ¬ (0 ≤ t.day.year ∧ t.day.year ≤ 9999) from h)]
  refine ⟨_, _, rfl, ?_⟩
  split <;> rfl

/-- A date with a sign before its year is not read from its own text. -/
theorem readDate_write_of_sign {t : Instant} (h : ¬ t.HasPlainYear) : readDate t.write = none := by
  obtain ⟨c, cs, hwrite, hc⟩ := write_of_sign h
  rw [readDate_of_zulu (zulu_mem_write t) (trim_write t), hwrite, readTimestamp,
    readDigits_of_head (by decide) hc]
  rfl

/-! ## Looking like a date -/

theorem looksLikeDate_write (t : Instant) :
    looksLikeDate t.write = true ↔ t.HasPlainYear := by
  constructor
  · intro hlooks
    by_contra h
    obtain ⟨c, cs, hwrite, hc⟩ := write_of_sign h
    obtain ⟨d, ds, hds, hd, -⟩ := exists_of_looksLikeDate hlooks
    rw [trim_write, hwrite] at hds
    rw [(List.cons.inj hds).1, hd] at hc
    cases hc
  · intro h
    obtain ⟨-, hmonth, -⟩ := day_bounds t
    have hyear4 : t.day.year.toNat < 10 ^ 4 := by
      have := h.2
      omega
    unfold looksLikeDate
    rw [trim_write, write_eq, writeYear,
      if_pos (show 0 ≤ t.day.year ∧ t.day.year ≤ 9999 from h)]
    have hyear := length_padded (by decide : 0 < 4) hyear4
    have hmonth := length_padded (by decide : 0 < 2) (by omega : t.day.month < 10 ^ 2)
    have hyear' : ∀ c ∈ padded 4 t.day.year.toNat, c.isDigit := fun c hc => isDigit_of_mem_padded hc
    have hmonth' : ∀ c ∈ padded 2 t.day.month, c.isDigit := fun c hc => isDigit_of_mem_padded hc
    generalize padded 4 t.day.year.toNat = ys at hyear hyear'
    generalize padded 2 t.day.month = ms at hmonth hmonth'
    match ys, ms, hyear, hmonth with
    | [a, b, c, d], [e, f], _, _ => simpa [and_assoc] using And.intro hyear' hmonth'

/-! ## Whole milliseconds -/

theorem toMillis_eq_self_iff (t : Instant) : t.toMillis = t ↔ t.nanos % 1_000_000 = 0 := by
  constructor
  · intro h
    have hnanos : t.nanos / 1_000_000 * 1_000_000 = t.nanos := congrArg nanos h
    omega
  · intro h
    have hnanos : t.nanos / 1_000_000 * 1_000_000 = t.nanos := by omega
    rw [toMillis, hnanos]

/-- The text shows no more of an instant than its milliseconds. -/
theorem write_toMillis (t : Instant) : t.toMillis.write = t.write := by
  have hday : t.toMillis.day = t.day := rfl
  have hsecond : t.toMillis.timeOfDay.second = t.timeOfDay.second := by
    simp only [timeOfDay, toMillis]
    omega
  have hmillis : t.toMillis.writeMillis = t.writeMillis := by
    have hwhole : t.toMillis.nanos / 1_000_000 = t.nanos / 1_000_000 :=
      Nat.mul_div_cancel _ (by decide)
    have hfraction :
        t.toMillis.timeOfDay.nanos / 1_000_000 = t.timeOfDay.nanos / 1_000_000 := by
      simp only [timeOfDay, toMillis]
      omega
    rw [writeMillis, writeMillis, hwhole, hfraction]
  rw [write_eq, write_eq, hday, hsecond, hmillis]
  rfl

/-- The text of an instant of the years 0 to 9999 looks like a date and is read as the instant cut
to milliseconds, which has the same text. -/
theorem readDate_text {t : Instant} (h : t.Proper) (hyear : t.HasPlainYear) :
    looksLikeDate t.text.toList = true ∧ readDate t.text.toList = some t.toMillis ∧
      (readDate t.text.toList = some t ↔ t.nanos % 1_000_000 = 0) ∧
      (readDate t.text.toList).map text = some t.text := by
  have hread := readDate_write h hyear
  rw [show t.text.toList = t.write from String.toList_ofList]
  refine ⟨(looksLikeDate_write t).2 hyear, hread, ?_, ?_⟩
  · rw [hread, Option.some_inj, toMillis_eq_self_iff]
  · rw [hread, Option.map_some, text, write_toMillis, text]

/-- Half a millisecond before the end of a leap second. -/
theorem readDate_text_leap_second :
    (⟨1483228799, 1_999_500_000⟩ : Instant).Proper ∧
      (⟨1483228799, 1_999_500_000⟩ : Instant).HasPlainYear ∧
      (⟨1483228799, 1_999_500_000⟩ : Instant).text = "2016-12-31T23:59:60.999Z" ∧
      readDate "2016-12-31T23:59:60.999Z".toList = some ⟨1483228799, 1_999_000_000⟩ := by
  have hproper : (⟨1483228799, 1_999_500_000⟩ : Instant).Proper := ⟨by decide, by decide⟩
  have hyear : (⟨1483228799, 1_999_500_000⟩ : Instant).HasPlainYear := by decide
  have htext : (⟨1483228799, 1_999_500_000⟩ : Instant).text = "2016-12-31T23:59:60.999Z" := by
    decide +kernel
  exact ⟨hproper, hyear, htext, htext ▸ (readDate_text hproper hyear).2.1⟩

end Instant

end SkyDiscovery.Calendar
