/-!
Civil dates of the proleptic Gregorian calendar, with year zero and negative
years. `Civil.dayNumber` counts the days from 1970-01-01 to a date and
`Civil.ofDayNumber` finds the date of a day. Both count years from March on, so
that the leap day is the last day of its year, and group them by the 146097 days
of four centuries.
-/

namespace RowExpr

/-- A calendar day and the time of day, to the millisecond. -/
structure Civil where
  year : Int
  month : Int
  day : Int
  hour : Int
  minute : Int
  second : Int
  milli : Int
deriving DecidableEq, Repr

def Civil.isLeapYear (year : Int) : Bool :=
  year % 4 == 0 && (year % 100 != 0 || year % 400 == 0)

/-- The number of days of a month. -/
def Civil.daysInMonth (year month : Int) : Int :=
  if month = 2 then (if isLeapYear year then 29 else 28)
  else if month = 4 ∨ month = 6 ∨ month = 9 ∨ month = 11 then 30
  else 31

/-- The number of days from 1970-01-01 to a date. -/
def Civil.dayNumber (year month day : Int) : Int :=
  let y := if month ≤ 2 then year - 1 else year
  let era := y / 400
  let yearOfEra := y % 400
  let monthFromMarch := if month ≤ 2 then month + 9 else month - 3
  let dayOfYear := (153 * monthFromMarch + 2) / 5 + day - 1
  let dayOfEra := yearOfEra * 365 + yearOfEra / 4 - yearOfEra / 100 + dayOfYear
  era * 146097 + dayOfEra - 719468

/-- The year, month and day at this many days from 1970-01-01. -/
def Civil.ofDayNumber (n : Int) : Int × Int × Int :=
  let z := n + 719468
  let era := z / 146097
  let dayOfEra := z % 146097
  let yearOfEra := (dayOfEra - dayOfEra / 1460 + dayOfEra / 36524 - dayOfEra / 146096) / 365
  let dayOfYear := dayOfEra - (365 * yearOfEra + yearOfEra / 4 - yearOfEra / 100)
  let monthFromMarch := (5 * dayOfYear + 2) / 153
  let day := dayOfYear - (153 * monthFromMarch + 2) / 5 + 1
  let month := if monthFromMarch < 10 then monthFromMarch + 3 else monthFromMarch - 9
  let year := yearOfEra + era * 400 + (if month ≤ 2 then 1 else 0)
  (year, month, day)

abbrev Civil.millisPerDay : Int := 86400000

/-- The milliseconds of the time of day. -/
def Civil.timeOfDay (c : Civil) : Int :=
  ((c.hour * 60 + c.minute) * 60 + c.second) * 1000 + c.milli

/-- The date and time of day at this many milliseconds from the start of 1970-01-01. -/
def Civil.ofMillis (millis : Int) : Civil :=
  let (year, month, day) := ofDayNumber (millis / millisPerDay)
  let t := millis % millisPerDay
  { year, month, day
    hour := t / 3600000
    minute := t / 60000 % 60
    second := t / 1000 % 60
    milli := t % 1000 }

/-- The fields name a day of the calendar and a time on it. Hour 24 is allowed for the midnight
that ends the day. -/
def Civil.isValid (c : Civil) : Bool :=
  1 ≤ c.month && c.month ≤ 12 && 1 ≤ c.day && c.day ≤ daysInMonth c.year c.month &&
    0 ≤ c.minute && c.minute ≤ 59 && 0 ≤ c.second && c.second ≤ 59 &&
    0 ≤ c.milli && c.milli ≤ 999 && 0 ≤ c.hour &&
    (c.hour ≤ 23 || (c.hour == 24 && c.minute == 0 && c.second == 0 && c.milli == 0))

/-- The milliseconds from the start of 1970-01-01 to a date and time. In the years 0 to 99 hour 24
counts as hour 0 of the day that is named. -/
def Civil.toMillis (c : Civil) : Int :=
  let time := if 0 ≤ c.year ∧ c.year < 100 then c.timeOfDay % millisPerDay else c.timeOfDay
  dayNumber c.year c.month c.day * millisPerDay + time

end RowExpr
