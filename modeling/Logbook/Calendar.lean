/-!
# Logbook — the civil calendar

Days are counted from 1 January 1970 and dated in the proleptic Gregorian calendar. Both directions
reckon in years that begin on 1 March: a leap day is then the last day of its year, so that four
years, a century and four centuries are each a round of equal parts but for one day at the end.

* **`Date.ofDay`** — the date of a day, round by round.
* **`Date.day`** — the day of a date, by counting leap years.
* **`sundayFrom`** — the Sundays, on which clocks are changed.
-/

namespace Logbook.Calendar

/-- A date: year (year 0 comes before year 1), month from 1 to 12, day of the month from 1. -/
structure Date where
  year : Int
  month : Int
  dayOfMonth : Int
  deriving DecidableEq, Repr

namespace Date

/-- The number of days from 1 March of year 0 to 1 January 1970. -/
def epoch : Int := 719468

/-- The date of the day with this number, where day 0 is 1 January 1970. -/
def ofDay (day : Int) : Date :=
  let fromMarch := day + epoch
  -- rounds of 400, 100, 4 and 1 years; the last part of a round may have one day more
  let era := fromMarch / 146097
  let dayOfEra := fromMarch % 146097
  let century := min 3 (dayOfEra / 36524)
  let dayOfCentury := dayOfEra - 36524 * century
  let group := dayOfCentury / 1461
  let dayOfGroup := dayOfCentury % 1461
  let yearOfGroup := min 3 (dayOfGroup / 365)
  let dayOfYear := dayOfGroup - 365 * yearOfGroup
  -- months of 31, 30, 31, 30 and 31 days make rounds of 153 days from March on
  let monthFromMarch := (5 * dayOfYear + 2) / 153
  let year := 400 * era + 100 * century + 4 * group + yearOfGroup
  { year := if monthFromMarch < 10 then year else year + 1
    month := if monthFromMarch < 10 then monthFromMarch + 3 else monthFromMarch - 9
    dayOfMonth := dayOfYear - (153 * monthFromMarch + 2) / 5 + 1 }

/-- The number of the day with this date. -/
def day (date : Date) : Int :=
  let year := if date.month < 3 then date.year - 1 else date.year
  let monthFromMarch := if date.month < 3 then date.month + 9 else date.month - 3
  365 * year + year / 4 - year / 100 + year / 400
    + (153 * monthFromMarch + 2) / 5 + date.dayOfMonth - 1 - epoch

end Date

/-- The days from `day` to the next Sunday, zero on a Sunday. Day 3, 4 January 1970, is one. -/
def daysToSunday (day : Int) : Int :=
  (3 - day) % 7

/-- The first Sunday on or after a date. -/
def sundayFrom (date : Date) : Int :=
  date.day + daysToSunday date.day

/-- The number of seconds of a day. -/
def daySeconds : Int := 86400

end Logbook.Calendar
