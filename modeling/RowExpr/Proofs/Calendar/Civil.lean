import RowExpr.Calendar.Civil

/-!
The calendar.

A day of four centuries lies in one of 400 years, counted from March on, and is one of the 365
days of that year, or of 366 if the February that ends it is a long one
(`Civil.exists_yearOfEra`). From this it follows that every day has a date of the calendar
(`Civil.ofDayNumber_valid`) whose number is that of the day (`Civil.dayNumber_ofDayNumber`), and
that the same goes for milliseconds (`Civil.isDate_ofMillis`, `Civil.toMillis_ofMillis`).
-/

namespace RowExpr

/-! ## Years from March on -/

/-- The days from the start of four centuries to that of one of their years. -/
def Civil.yearStart (year : Int) : Int := 365 * year + year / 4 - year / 100

/-- The last day of a year from March on; days count from zero. -/
def Civil.lastDay (year : Int) : Int := if isLeapYear (year + 1) then 365 else 364

/-- The year in which a day of four centuries lies. -/
def Civil.yearOfDay (day : Int) : Int := (day - day / 1460 + day / 36524 - day / 146096) / 365

/-- A day of a year from March on, as a date. -/
def Civil.ofMarch (year dayOfYear : Int) : Int × Int × Int :=
  let monthFromMarch := (5 * dayOfYear + 2) / 153
  let day := dayOfYear - (153 * monthFromMarch + 2) / 5 + 1
  let month := if monthFromMarch < 10 then monthFromMarch + 3 else monthFromMarch - 9
  (year + (if month ≤ 2 then 1 else 0), month, day)

section March

variable {d y era dayOfYear : Int}

/-- The Gregorian rule. -/
theorem Civil.isLeapYear_iff {year : Int} :
    isLeapYear year = true ↔ year % 4 = 0 ∧ (year % 100 ≠ 0 ∨ year % 400 = 0) := by
  simp [isLeapYear]

/-- A day of a century, by its four years and the day of these. -/
theorem Civil.yearOfDay_eq {c q s : Int} (centuries : 0 ≤ c ∧ c ≤ 3) (quads : 0 ≤ q ∧ q ≤ 24)
    (days : 0 ≤ s ∧ s ≤ 1460) (inside : 1461 * q + s ≤ 36523 ∨ c = 3) :
    ∃ r, 0 ≤ r ∧ r ≤ 3 ∧ yearOfDay (36524 * c + 1461 * q + s) =
      100 * c + 4 * q + r ∧ 365 * r ≤ s ∧
      (s < 365 * (r + 1) ∨ r = 3 ∧ s = 1460) := by
  generalize day : 36524 * c + 1461 * q + s = d
  unfold yearOfDay
  rcases (by omega : d < 146096 ∨ d = 146096) with before | last
  · have century : d / 36524 = c := by omega
    have four : d / 146096 = 0 := by omega
    rcases (by omega : s < 365 ∨ (365 ≤ s ∧ s < 730) ∨ (730 ≤ s ∧ s < 1095) ∨ 1095 ≤ s) with h | h
      | h | h
    · exact ⟨0, by omega⟩
    · exact ⟨1, by omega⟩
    · exact ⟨2, by omega⟩
    · exact ⟨3, by omega⟩
  · exact ⟨3, by omega⟩

/-- A day of four centuries lies in its year. -/
theorem Civil.yearOfDay_spec (inside : 0 ≤ d ∧ d < 146097) :
    (0 ≤ yearOfDay d ∧ yearOfDay d < 400) ∧
      0 ≤ d - yearStart (yearOfDay d) ∧ d - yearStart (yearOfDay d) ≤ lastDay (yearOfDay d) := by
  obtain ⟨c, q, s, rfl, centuries, quads, days, last⟩ : ∃ c q s : Int,
    d = 36524 * c + 1461 * q + s ∧
      (0 ≤ c ∧ c ≤ 3) ∧ (0 ≤ q ∧ q ≤ 24) ∧ (0 ≤ s ∧ s ≤ 1460) ∧
      (1461 * q + s ≤ 36523 ∨ c = 3) := by
    rcases (by omega : d < 146096 ∨ d = 146096) with before | last
    · exact ⟨d / 36524, d % 36524 / 1461, d % 36524 % 1461, by omega⟩
    · exact ⟨3, 24, 1460, by omega⟩
  obtain ⟨r, low, high, year, after, before⟩ := yearOfDay_eq centuries quads days last
  have start : yearStart (100 * c + 4 * q + r) = 36524 * c + 1461 * q + 365 * r := by
    unfold yearStart
    omega
  rw [year, start, lastDay]
  refine ⟨by omega, by omega, ?_⟩
  rcases before with before | leap
  · split <;> omega
  · rw [if_pos (isLeapYear_iff.2 (by omega))]
    omega

theorem Civil.ofDayNumber_eq (n : Int) :
    ofDayNumber n = ofMarch (yearOfDay ((n + 719468) % 146097) + (n + 719468) / 146097 * 400)
      ((n + 719468) % 146097 - yearStart (yearOfDay ((n + 719468) % 146097))) := rfl

/-- Counting days from March and back. -/
theorem Civil.dayNumber_ofMarch (years : 0 ≤ y ∧ y < 400)
    (days : 0 ≤ dayOfYear ∧ dayOfYear ≤ 365) :
    dayNumber (ofMarch (y + era * 400) dayOfYear).1 (ofMarch (y + era * 400) dayOfYear).2.1
      (ofMarch (y + era * 400) dayOfYear).2.2 =
        era * 146097 + yearStart y + dayOfYear - 719468 := by
  unfold ofMarch dayNumber yearStart
  dsimp only
  generalize month : (5 * dayOfYear + 2) / 153 = m
  split <;> split <;> omega

/-- Leap years recur after four hundred years. -/
theorem Civil.isLeapYear_era (year era : Int) :
    isLeapYear (year + era * 400) = isLeapYear year := by
  rw [Bool.eq_iff_iff, isLeapYear_iff, isLeapYear_iff]
  omega

/-- A day of a year that begins in March has a month, and a day that this month has. -/
theorem Civil.ofMarch_valid (days : 0 ≤ dayOfYear ∧ dayOfYear ≤ lastDay y) :
    (1 ≤ (ofMarch (y + era * 400) dayOfYear).2.1 ∧ (ofMarch (y + era * 400) dayOfYear).2.1 ≤ 12) ∧
      1 ≤ (ofMarch (y + era * 400) dayOfYear).2.2 ∧ (ofMarch (y + era * 400) dayOfYear).2.2 ≤
        daysInMonth (ofMarch (y + era * 400) dayOfYear).1
          (ofMarch (y + era * 400) dayOfYear).2.1 := by
  have most : lastDay y ≤ 365 := by
    unfold lastDay
    split <;> omega
  unfold ofMarch
  dsimp only
  generalize month : (5 * dayOfYear + 2) / 153 = m
  obtain rfl | before : m = 11 ∨ m < 11 := by omega
  · -- The year from March on ends with February.
    show (1 ≤ (2 : Int) ∧ (2 : Int) ≤ 12) ∧ 1 ≤ dayOfYear - 337 + 1 ∧
      dayOfYear - 337 + 1 ≤ daysInMonth (y + era * 400 + 1) 2
    rw [daysInMonth, if_pos rfl, Int.add_right_comm, isLeapYear_era]
    unfold lastDay at days
    split at days
    · next leap =>
      rw [if_pos leap]
      omega
    · next common =>
      rw [if_neg common]
      omega
  · have other : (if m < 10 then m + 3 else m - 9) ≠ 2 := by
      split <;> omega
    rw [daysInMonth, if_neg other]
    split <;> split <;> omega

end March

/-! ## Days -/

section Days

variable (n : Int)

/-- The date of a day has the number of that day. -/
theorem Civil.dayNumber_ofDayNumber :
    dayNumber (ofDayNumber n).1 (ofDayNumber n).2.1 (ofDayNumber n).2.2 = n := by
  obtain ⟨years, low, high⟩ := yearOfDay_spec (d := (n + 719468) % 146097) (by omega)
  have most : lastDay (yearOfDay ((n + 719468) % 146097)) ≤ 365 := by
    unfold lastDay
    split <;> omega
  rw [ofDayNumber_eq, dayNumber_ofMarch years ⟨low, Int.le_trans high most⟩]
  omega

/-- The date of a day is a date of the calendar. -/
theorem Civil.ofDayNumber_valid :
    (1 ≤ (ofDayNumber n).2.1 ∧ (ofDayNumber n).2.1 ≤ 12) ∧
      1 ≤ (ofDayNumber n).2.2 ∧ (ofDayNumber n).2.2 ≤ daysInMonth (ofDayNumber n).1
        (ofDayNumber n).2.1 := by
  obtain ⟨-, days⟩ := yearOfDay_spec (d := (n + 719468) % 146097) (by omega)
  rw [ofDayNumber_eq]
  exact ofMarch_valid days

end Days

/-! ## Milliseconds -/

section Millis

variable (millis : Int)

theorem Civil.timeOfDay_ofMillis : (ofMillis millis).timeOfDay = millis % millisPerDay := by
  unfold timeOfDay ofMillis millisPerDay
  dsimp only
  omega

/-- The fields of an instant tell the instant. -/
theorem Civil.toMillis_ofMillis : (ofMillis millis).toMillis = millis := by
  have day : dayNumber (ofMillis millis).year (ofMillis millis).month (ofMillis millis).day =
      millis / millisPerDay :=
    dayNumber_ofDayNumber (millis / millisPerDay)
  unfold toMillis
  dsimp only
  rw [timeOfDay_ofMillis, day, Int.emod_emod, ite_self, Int.ediv_mul_add_emod]

end Millis

/-! ## Dates -/

/-- The fields name a day of the calendar and a time on it, or the midnight that ends it as hour
24. -/
structure Civil.IsDate (c : Civil) : Prop where
  month : 1 ≤ c.month ∧ c.month ≤ 12
  day : 1 ≤ c.day ∧ c.day ≤ daysInMonth c.year c.month
  hour : 0 ≤ c.hour ∧ (c.hour ≤ 23 ∨ c.hour = 24 ∧ c.minute = 0 ∧ c.second = 0 ∧ c.milli = 0)
  minute : 0 ≤ c.minute ∧ c.minute ≤ 59
  second : 0 ≤ c.second ∧ c.second ≤ 59
  milli : 0 ≤ c.milli ∧ c.milli ≤ 999

section Dates

variable {c : Civil}

/-- The check of fields accepts the dates of the calendar, and no others. -/
theorem Civil.isValid_iff : c.isValid = true ↔ c.IsDate := by
  simp only [isValid, Bool.and_eq_true, Bool.or_eq_true, decide_eq_true_iff,
    beq_iff_eq, and_assoc]
  constructor
  · rintro ⟨m1, m2, d1, d2, n1, n2, s1, s2, f1, f2, h1, h2⟩
    exact ⟨⟨m1, m2⟩, ⟨d1, d2⟩, ⟨h1, h2⟩, ⟨n1, n2⟩, ⟨s1, s2⟩, ⟨f1, f2⟩⟩
  · rintro ⟨⟨m1, m2⟩, ⟨d1, d2⟩, ⟨h1, h2⟩, ⟨n1, n2⟩, ⟨s1, s2⟩, ⟨f1, f2⟩⟩
    exact ⟨m1, m2, d1, d2, n1, n2, s1, s2, f1, f2, h1, h2⟩

theorem Civil.daysInMonth_le (year month : Int) : daysInMonth year month ≤ 31 := by
  unfold daysInMonth
  split
  · split <;> decide
  · split <;> decide

/-- The fields of an instant are a date of the calendar. -/
theorem Civil.isDate_ofMillis (millis : Int) : (ofMillis millis).IsDate := by
  obtain ⟨month, day⟩ := ofDayNumber_valid (millis / millisPerDay)
  refine ⟨month, day, ?_, ?_, ?_, ?_⟩ <;>
  · unfold ofMillis millisPerDay
    dsimp only
    omega

/-- Years of four digits are far from the ends of the range of times. -/
theorem Civil.IsDate.natAbs_toMillis_le (date : c.IsDate) (year : 0 ≤ c.year ∧ c.year ≤ 9999) :
    c.toMillis.natAbs ≤ 300000000000000 := by
  obtain ⟨month, ⟨low, high⟩, hour, minute, second, milli⟩ := date
  have days := daysInMonth_le c.year c.month
  have number : (dayNumber c.year c.month c.day).natAbs ≤ 3000000 := by
    unfold dayNumber
    dsimp only
    split <;> omega
  have time : 0 ≤ c.timeOfDay ∧ c.timeOfDay ≤ millisPerDay := by
    unfold timeOfDay millisPerDay
    omega
  unfold toMillis millisPerDay at *
  dsimp only
  split <;> omega

end Dates

end RowExpr
