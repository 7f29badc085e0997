import SkyDiscovery.Calendar.Day

/-!
# Days and their numbers

A year from March to February lies within an era of 400 years, and its months repeat in five.  The
day of a number is found by undoing both counts.

* `Day.number_ofNumber`: the day with a number has this number.
* `Day.month_ofNumber`, `Day.day_ofNumber`: it is a day of the calendar.
-/

namespace SkyDiscovery.Calendar

/-! ## Eras -/

/-- The year of a day of an era, counted from March. -/
def yearOfEra (e : Int) : Int :=
  (e - e / 1460 + e / 36524 - e / 146096) / 365

/-- The day of a day's year, counted from 1 March. -/
def dayOfYear (e : Int) : Int :=
  e - (365 * yearOfEra e + yearOfEra e / 4 - yearOfEra e / 100)

/-- A day of an era is the last one, or is counted by centuries, by periods of four years and by
days of the period; the last period of a century has no leap day. -/
theorem era_cases {e : Int} (h0 : 0 ≤ e) (h1 : e < 146097) :
    e = 146096 ∨ ∃ c q s : Int, e = 36524 * c + 1461 * q + s ∧ 0 ≤ c ∧ c ≤ 3 ∧ 0 ≤ q ∧ q ≤ 24 ∧
      0 ≤ s ∧ s ≤ 1460 ∧ (q = 24 → s ≤ 1459) := by
  by_cases hlast : e = 146096
  · exact Or.inl hlast
  · refine Or.inr ⟨e / 36524, e % 36524 / 1461, e % 36524 % 1461, ?_⟩
    omega

/-- In a period the year is the quotient by 365, except on the leap day. -/
theorem yearOfEra_eq {c q s : Int} (hc0 : 0 ≤ c) (hc1 : c ≤ 3) (hq0 : 0 ≤ q) (hq1 : q ≤ 24)
    (hs0 : 0 ≤ s) (hs1 : s ≤ 1460) (hlast : q = 24 → s ≤ 1459) :
    ∃ k, yearOfEra (36524 * c + 1461 * q + s) = 100 * c + 4 * q + k ∧ 0 ≤ k ∧ k ≤ 3 ∧
      365 * k ≤ s ∧ (s < 365 * k + 365 ∨ s = 1460 ∧ k = 3) := by
  obtain ⟨x, hx⟩ : ∃ x, x = (36524 * c + 1461 * q + s) / 1460 := ⟨_, rfl⟩
  have hcentury : (36524 * c + 1461 * q + s) / 36524 = c := by omega
  have hera : (36524 * c + 1461 * q + s) / 146096 = 0 := by omega
  have hx' : x = 25 * c + q ∨ x = 25 * c + q + 1 ∧ 1364 ≤ s := by omega
  refine ⟨yearOfEra (36524 * c + 1461 * q + s) - 100 * c - 4 * q, by omega, ?_⟩
  rw [yearOfEra, hcentury, hera, ← hx]
  omega

/-- A year of an era has 365 days, or 366 if it ends in the February of a leap year. -/
theorem dayOfYear_bounds {e : Int} (h0 : 0 ≤ e) (h1 : e < 146097) :
    0 ≤ yearOfEra e ∧ yearOfEra e < 400 ∧ 0 ≤ dayOfYear e ∧ dayOfYear e ≤ 365 ∧
      (dayOfYear e = 365 → isLeapYear (yearOfEra e + 1) = true) := by
  rcases era_cases h0 h1 with rfl | ⟨c, q, s, rfl, hc0, hc1, hq0, hq1, hs0, hs1, hlast⟩
  · decide
  · obtain ⟨k, hyear, hk0, hk1, hks, hsk⟩ := yearOfEra_eq hc0 hc1 hq0 hq1 hs0 hs1 hlast
    have hday : dayOfYear (36524 * c + 1461 * q + s) = s - 365 * k := by
      rw [dayOfYear, hyear]
      omega
    rw [hday, hyear]
    refine ⟨by omega, by omega, by omega, by omega, fun hleap => ?_⟩
    simp only [isLeapYear, Bool.and_eq_true, Bool.or_eq_true, beq_iff_eq, bne_iff_ne]
    omega

/-! ## Months -/

/-- The month of a day of the year, counted from March. -/
def monthOfYear (d : Int) : Int :=
  (5 * d + 2) / 153

/-- The day of the month of a day of the year. -/
def dayOfMonth (d : Int) : Int :=
  d - (153 * monthOfYear d + 2) / 5 + 1

theorem monthOfYear_bounds {d : Int} (h0 : 0 ≤ d) (h1 : d ≤ 365) :
    0 ≤ monthOfYear d ∧ monthOfYear d ≤ 11 ∧ 1 ≤ dayOfMonth d := by
  unfold dayOfMonth monthOfYear
  omega

/-- The number of the month in the year from January. -/
def calendarMonth (m : Int) : Nat :=
  (if m < 10 then m + 3 else m - 9).toNat

/-- The months from March to January are as long as the steps of the table. -/
theorem daysInMonth_calendarMonth (year : Int) {m : Int} (h0 : 0 ≤ m) (h1 : m ≤ 10) :
    (daysInMonth year (calendarMonth m) : Int) = (153 * (m + 1) + 2) / 5 - (153 * m + 2) / 5 := by
  obtain rfl | rfl | rfl | rfl | rfl | rfl | rfl | rfl | rfl | rfl | rfl :
      m = 0 ∨ m = 1 ∨ m = 2 ∨ m = 3 ∨ m = 4 ∨ m = 5 ∨ m = 6 ∨ m = 7 ∨ m = 8 ∨ m = 9 ∨ m = 10 := by
    omega
  all_goals rfl

/-- A day of the year does not lie behind the end of its month. -/
theorem dayOfMonth_le {d : Int} (h0 : 0 ≤ d) (h1 : d ≤ 365) {year : Int}
    (hleap : d = 365 → isLeapYear year = true) :
    dayOfMonth d ≤ daysInMonth year (calendarMonth (monthOfYear d)) := by
  obtain ⟨hm0, hm1, hd⟩ := monthOfYear_bounds h0 h1
  have hday : dayOfMonth d = d - (153 * monthOfYear d + 2) / 5 + 1 := rfl
  have hnext : 5 * d + 2 < 153 * (monthOfYear d + 1) := by unfold monthOfYear; omega
  by_cases hfebruary : monthOfYear d = 11
  · rw [hfebruary] at hday hnext ⊢
    show _ ≤ (((if isLeapYear year then 29 else 28 : Nat)) : Int)
    by_cases hd365 : d = 365
    · rw [if_pos (hleap hd365)]
      omega
    · split <;> omega
  · rw [daysInMonth_calendarMonth year hm0 (by omega)]
    omega

/-! ## Numbers of days -/

namespace Day

/-- The day of a number, by its era, its year of the era and its day of the year. -/
theorem ofNumber_eq (n : Int) :
    let e := (n + 719468) % 146097
    let m := monthOfYear (dayOfYear e)
    let year := yearOfEra e + (n + 719468) / 146097 * 400
    ofNumber n =
      ⟨if m < 10 then year else year + 1, calendarMonth m, (dayOfMonth (dayOfYear e)).toNat⟩ := by
  intro e m year
  show (if m < 10 then _ else _) = _
  by_cases hm : m < 10
  · simp only [if_pos hm, calendarMonth]
    rfl
  · simp only [if_neg hm, calendarMonth]
    rfl

theorem number_ofNumber (n : Int) : (ofNumber n).number = n := by
  rw [ofNumber_eq]
  obtain ⟨e, he⟩ : ∃ e, e = (n + 719468) % 146097 := ⟨_, rfl⟩
  obtain ⟨y, hy⟩ : ∃ y, y = yearOfEra e := ⟨_, rfl⟩
  obtain ⟨hy0, hy1, hd0, hd1, -⟩ := @dayOfYear_bounds e (by omega) (by omega)
  have hday : dayOfYear e = e - (365 * y + y / 4 - y / 100) := by rw [hy]; rfl
  obtain ⟨hm0, hm1, hmd⟩ := monthOfYear_bounds hd0 hd1
  have hmonth : dayOfMonth (dayOfYear e) =
      dayOfYear e - (153 * monthOfYear (dayOfYear e) + 2) / 5 + 1 := rfl
  simp only [← he, ← hy]
  rw [← hy] at hy0 hy1
  generalize monthOfYear (dayOfYear e) = m at *
  generalize dayOfMonth (dayOfYear e) = d at *
  generalize dayOfYear e = l at *
  have hback : (if calendarMonth m ≤ 2 then (calendarMonth m : Int) + 9
      else calendarMonth m - 3) = m := by
    unfold calendarMonth
    split <;> split at * <;> omega
  have hyear : ∀ a : Int, (if calendarMonth m ≤ 2 then (if m < 10 then a else a + 1) - 1
      else if m < 10 then a else a + 1) = a := by
    intro a
    unfold calendarMonth
    by_cases h10 : m < 10
    · rw [if_neg (by rw [if_pos h10]; omega), if_pos h10]
    · rw [if_pos (by rw [if_neg h10]; omega), if_neg h10]
      omega
  have hera : (y + (n + 719468) / 146097 * 400) / 400 = (n + 719468) / 146097 := by omega
  have hyearOfEra : (y + (n + 719468) / 146097 * 400) % 400 = y := by omega
  have hd : ((d.toNat : Nat) : Int) = d := by omega
  unfold number
  simp only [hback, hyear, hera, hyearOfEra, hd]
  omega

theorem month_ofNumber (n : Int) : 1 ≤ (ofNumber n).month ∧ (ofNumber n).month ≤ 12 := by
  obtain ⟨-, -, hd0, hd1, -⟩ :=
    @dayOfYear_bounds ((n + 719468) % 146097) (by omega) (by omega)
  obtain ⟨hm0, hm1, -⟩ := monthOfYear_bounds hd0 hd1
  rw [ofNumber_eq]
  simp only [calendarMonth]
  split <;> omega

theorem isLeapYear_add_eras (year era : Int) :
    isLeapYear (year + era * 400) = isLeapYear year := by
  unfold isLeapYear
  rw [show (year + era * 400) % 4 = year % 4 by omega,
    show (year + era * 400) % 100 = year % 100 by omega,
    show (year + era * 400) % 400 = year % 400 by omega]

theorem day_ofNumber (n : Int) :
    1 ≤ (ofNumber n).day ∧ (ofNumber n).day ≤ daysInMonth (ofNumber n).year (ofNumber n).month := by
  obtain ⟨-, -, hd0, hd1, hleap⟩ :=
    @dayOfYear_bounds ((n + 719468) % 146097) (by omega) (by omega)
  obtain ⟨hm0, hm1, hmd⟩ := monthOfYear_bounds hd0 hd1
  rw [ofNumber_eq]
  generalize hyear : yearOfEra ((n + 719468) % 146097) = y at hleap
  generalize hday : dayOfYear ((n + 719468) % 146097) = d at *
  dsimp only
  have hle : dayOfMonth d ≤ daysInMonth (if monthOfYear d < 10 then y + (n + 719468) / 146097 * 400
      else y + (n + 719468) / 146097 * 400 + 1) (calendarMonth (monthOfYear d)) := by
    refine dayOfMonth_le hd0 hd1 fun hlast => ?_
    have hfebruary : ¬ monthOfYear d < 10 := by unfold monthOfYear; omega
    rw [if_neg hfebruary, Int.add_right_comm, isLeapYear_add_eras]
    exact hleap hlast
  omega

end Day

end SkyDiscovery.Calendar
