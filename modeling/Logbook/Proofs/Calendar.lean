import Logbook.Calendar
import Mathlib.Tactic.IntervalCases

/-!
# Logbook — the calendar, day by day

The proleptic Gregorian calendar is said here by its leap years, the lengths of its months and the
step from a date to the next one. Dates follow each other from 1 January 1970 on, and before it,
and so each day has its date. `Date.ofDay` and `Date.day` reckon in rounds of years that begin in
March instead; both come to the same.

* **`isLeap`**, **`monthLength`**, **`Date.next`** — the calendar; **`Date.IsValid`** — its dates.
* **`Date.FallsOn`** — a date falls on a day, counted along `Date.next`.
* **`marchStart`**, **`marchDate`** — the reckoning from March. Every day and every date is a day
  of a year that begins in March (`exists_march_ofDay`, `exists_march_date`), and in one way only.
* **`Date.day_ofDay`**, **`Date.ofDay_day`** — both directions are inverse to each other.
* **`Date.fallsOn_iff`** — and they are the calendar.
* **`Date.before_of_day_lt`** — of two days the earlier one has the earlier date.
-/

namespace Logbook.Calendar

/-! ## The calendar -/

/-- Every fourth year, but of the full centuries every fourth one only. -/
def isLeap (year : Int) : Bool :=
  year % 4 == 0 && (year % 100 != 0 || year % 400 == 0)

def monthLength (year month : Int) : Int :=
  if month = 2 then if isLeap year then 29 else 28
  else if month = 4 ∨ month = 6 ∨ month = 9 ∨ month = 11 then 30
  else 31

namespace Date

structure IsValid (date : Date) : Prop where
  one_le_month : 1 ≤ date.month
  month_le : date.month ≤ 12
  one_le_day : 1 ≤ date.dayOfMonth
  day_le : date.dayOfMonth ≤ monthLength date.year date.month

/-- The date after a date. -/
def next (date : Date) : Date :=
  if date.dayOfMonth < monthLength date.year date.month then
    { date with dayOfMonth := date.dayOfMonth + 1 }
  else if date.month < 12 then ⟨date.year, date.month + 1, 1⟩
  else ⟨date.year + 1, 1, 1⟩

/-- The date falls on the day with this number, by going from date to date. -/
inductive FallsOn : Date → Int → Prop where
  | epoch : FallsOn ⟨1970, 1, 1⟩ 0
  | next {date : Date} {day : Int} : FallsOn date day → FallsOn date.next (day + 1)
  | previous {date : Date} {day : Int} :
      date.IsValid → FallsOn date.next (day + 1) → FallsOn date day

end Date

/-! ## Years that begin in March

The leap day is the last day of such a year, so its length depends on the calendar year in which it
ends. -/

/-- The number of days from 1 March of year 0 to 1 March of a year. -/
def marchStart (year : Int) : Int :=
  365 * year + year / 4 - year / 100 + year / 400

/-- The date of a day of a year that begins in March. -/
def marchDate (year dayOfYear : Int) : Date :=
  let monthFromMarch := (5 * dayOfYear + 2) / 153
  { year := if monthFromMarch < 10 then year else year + 1
    month := if monthFromMarch < 10 then monthFromMarch + 3 else monthFromMarch - 9
    dayOfMonth := dayOfYear - (153 * monthFromMarch + 2) / 5 + 1 }

theorem marchStart_succ (year : Int) :
    marchStart (year + 1) = marchStart year + if isLeap (year + 1) then 366 else 365 := by
  unfold marchStart isLeap
  simp only [Bool.and_eq_true, Bool.or_eq_true, beq_iff_eq, bne_iff_ne]
  split <;> omega

theorem marchStart_mono {a b : Int} (h : a ≤ b) : marchStart a ≤ marchStart b := by
  unfold marchStart
  omega

/-- A day belongs to one year only. -/
theorem march_inj {a b c d : Int} (hc : 0 ≤ c ∧ c < marchStart (a + 1) - marchStart a)
    (hd : 0 ≤ d ∧ d < marchStart (b + 1) - marchStart b)
    (h : marchStart a + c = marchStart b + d) : a = b ∧ c = d := by
  have hab : a = b := by
    rcases lt_trichotomy a b with hlt | heq | hlt
    · have hmono := marchStart_mono (Int.add_one_le_iff.mpr hlt)
      omega
    · exact heq
    · have hmono := marchStart_mono (Int.add_one_le_iff.mpr hlt)
      omega
  subst hab
  exact ⟨rfl, by omega⟩

section Rounds

variable {era century group yearOfGroup : Int}

/-- The rounds of 400, 100, 4 and 1 years in front of a year add up to its start. -/
theorem marchStart_rounds (hcentury : 0 ≤ century ∧ century ≤ 3) (hgroup : 0 ≤ group ∧ group ≤ 24)
    (hyear : 0 ≤ yearOfGroup ∧ yearOfGroup ≤ 3) :
    marchStart (400 * era + 100 * century + 4 * group + yearOfGroup)
      = 146097 * era + 36524 * century + 1461 * group + 365 * yearOfGroup := by
  unfold marchStart
  omega

/-- A year has one day more if it ends a round of four years, unless that ends a century; the last
century of its round ends in a longer year all the same. -/
theorem marchStart_rounds_succ (hcentury : 0 ≤ century ∧ century ≤ 3)
    (hgroup : 0 ≤ group ∧ group ≤ 24) (hyear : 0 ≤ yearOfGroup ∧ yearOfGroup ≤ 3) :
    marchStart (400 * era + 100 * century + 4 * group + yearOfGroup + 1)
      = marchStart (400 * era + 100 * century + 4 * group + yearOfGroup)
        + if yearOfGroup = 3 ∧ (group = 24 → century = 3) then 366 else 365 := by
  rw [marchStart_rounds hcentury hgroup hyear]
  unfold marchStart
  split <;> omega

end Rounds

/-- **Every day is a day of a year that begins in March**, and its date is found there. -/
theorem exists_march_ofDay (day : Int) :
    ∃ year dayOfYear, (0 ≤ dayOfYear ∧ dayOfYear < marchStart (year + 1) - marchStart year)
      ∧ day + Date.epoch = marchStart year + dayOfYear
      ∧ Date.ofDay day = marchDate year dayOfYear := by
  let fromMarch := day + Date.epoch
  let era := fromMarch / 146097
  let dayOfEra := fromMarch % 146097
  let century := min 3 (dayOfEra / 36524)
  let dayOfCentury := dayOfEra - 36524 * century
  let group := dayOfCentury / 1461
  let dayOfGroup := dayOfCentury % 1461
  let yearOfGroup := min 3 (dayOfGroup / 365)
  -- what is left behind each round; the last century and the last year may have one day more
  have hfromMarch : fromMarch = 146097 * era + dayOfEra ∧ 0 ≤ dayOfEra ∧ dayOfEra < 146097 := by
    omega
  have hcentury : (0 ≤ century ∧ century ≤ 3) ∧ 0 ≤ dayOfCentury
      ∧ dayOfCentury ≤ if century = 3 then 36524 else 36523 := by
    split <;> omega
  have hgroup : (0 ≤ group ∧ group ≤ 24) ∧ dayOfCentury = 1461 * group + dayOfGroup
      ∧ 0 ≤ dayOfGroup ∧ dayOfGroup < 1461 := by
    omega
  have hyear : (0 ≤ yearOfGroup ∧ yearOfGroup ≤ 3) ∧ 0 ≤ dayOfGroup - 365 * yearOfGroup
      ∧ dayOfGroup - 365 * yearOfGroup < if yearOfGroup = 3 then 366 else 365 := by
    split <;> omega
  refine ⟨400 * era + 100 * century + 4 * group + yearOfGroup, dayOfGroup - 365 * yearOfGroup,
    ?_, ?_, rfl⟩
  · rw [marchStart_rounds_succ hcentury.1 hgroup.1 hyear.1]
    -- a century that ends in a shorter year has no room for the day too many
    split at hcentury <;> split at hyear <;> split <;> omega
  · rw [marchStart_rounds hcentury.1 hgroup.1 hyear.1]
    omega

/-! ## Months from March on

A month ends where the next one begins; February is the last one, and takes what is left of the
year. -/

theorem monthLength_march {year month : Int} (h : 0 ≤ month ∧ month ≤ 11) :
    monthLength (if month < 10 then year else year + 1)
        (if month < 10 then month + 3 else month - 9)
      = (if month < 11 then (153 * (month + 1) + 2) / 5
          else marchStart (year + 1) - marchStart year) - (153 * month + 2) / 5 := by
  have hlast : marchStart (year + 1) - marchStart year = 337 + monthLength (year + 1) 2 := by
    rw [marchStart_succ]
    show _ = 337 + if isLeap (year + 1) then (29 : Int) else 28
    split <;> omega
  rw [hlast]
  obtain ⟨hlow, hhigh⟩ := h
  interval_cases month
  case «11» => show monthLength (year + 1) 2 = 337 + monthLength (year + 1) 2 - 337; omega
  all_goals rfl

theorem isValid_marchDate {year dayOfYear : Int}
    (h : 0 ≤ dayOfYear ∧ dayOfYear < marchStart (year + 1) - marchStart year) :
    (marchDate year dayOfYear).IsValid := by
  have hlength := marchStart_succ year
  have hmonth : 0 ≤ (5 * dayOfYear + 2) / 153 ∧ (5 * dayOfYear + 2) / 153 ≤ 11 := by
    split at hlength <;> omega
  unfold marchDate
  dsimp only
  generalize hm : (5 * dayOfYear + 2) / 153 = month at hmonth
  refine ⟨?_, ?_, ?_, ?_⟩ <;> dsimp only
  · split <;> omega
  · split <;> omega
  · omega
  · rw [monthLength_march hmonth]
    split <;> omega

/-- The day of a date is counted from the beginning of its month in a year that begins in March. -/
theorem Date.day_eq (date : Date) :
    date.day = marchStart (if date.month < 3 then date.year - 1 else date.year)
      + (153 * (if date.month < 3 then date.month + 9 else date.month - 3) + 2) / 5
      + date.dayOfMonth - 1 - epoch := rfl

theorem day_marchDate (year dayOfYear : Int)
    (h : 0 ≤ dayOfYear ∧ dayOfYear < marchStart (year + 1) - marchStart year) :
    (marchDate year dayOfYear).day + Date.epoch = marchStart year + dayOfYear := by
  have hlength := marchStart_succ year
  unfold marchDate
  dsimp only
  generalize hm : (5 * dayOfYear + 2) / 153 = month
  have hmonth : 0 ≤ month ∧ month ≤ 11 := by
    split at hlength <;> omega
  rw [Date.day_eq]
  dsimp only
  by_cases hspring : month < 10
  · rw [if_pos hspring, if_pos hspring, if_neg (by omega), if_neg (by omega),
      show month + 3 - 3 = month by omega]
    omega
  · rw [if_neg hspring, if_neg hspring, if_pos (by omega), if_pos (by omega),
      show month - 9 + 9 = month by omega, Int.add_sub_cancel]
    omega

/-- **Every date is a day of a year that begins in March.** -/
theorem exists_march_date {date : Date} (h : date.IsValid) :
    ∃ year dayOfYear, (0 ≤ dayOfYear ∧ dayOfYear < marchStart (year + 1) - marchStart year)
      ∧ date = marchDate year dayOfYear := by
  obtain ⟨calendarYear, calendarMonth, dayOfMonth⟩ := date
  obtain ⟨hone, htwelve, hfirst, hlast⟩ := h
  dsimp only at hone htwelve hfirst hlast
  -- the month counted from March, and the year of that March
  obtain ⟨year, month, hmonth, rfl, rfl⟩ : ∃ year month, (0 ≤ month ∧ month ≤ 11)
      ∧ calendarYear = (if month < 10 then year else year + 1)
      ∧ calendarMonth = (if month < 10 then month + 3 else month - 9) := by
    by_cases hearly : calendarMonth < 3
    · refine ⟨calendarYear - 1, calendarMonth + 9, by omega, ?_, ?_⟩ <;> split <;> omega
    · refine ⟨calendarYear, calendarMonth - 3, by omega, ?_, ?_⟩ <;> split <;> omega
  rw [monthLength_march hmonth] at hlast
  have hlength := marchStart_succ year
  -- the month is found again from the day of the year
  have hback : (5 * ((153 * month + 2) / 5 + dayOfMonth - 1) + 2) / 153 = month := by
    split at hlast <;> split at hlength <;> omega
  refine ⟨year, (153 * month + 2) / 5 + dayOfMonth - 1, ?_, ?_⟩
  · split at hlast <;> split at hlength <;> omega
  · unfold marchDate
    dsimp only
    rw [hback]
    congr 1
    omega

namespace Date

theorem isValid_ofDay (day : Int) : (ofDay day).IsValid := by
  obtain ⟨year, dayOfYear, hday, -, hdate⟩ := exists_march_ofDay day
  rw [hdate]
  exact isValid_marchDate hday

/-- **The day of the date of a day is that day.** -/
theorem day_ofDay (day : Int) : (ofDay day).day = day := by
  obtain ⟨year, dayOfYear, hday, heq, hdate⟩ := exists_march_ofDay day
  have hback := day_marchDate year dayOfYear hday
  rw [← hdate] at hback
  omega

/-- **The date of the day of a date is that date.** -/
theorem ofDay_day {date : Date} (h : date.IsValid) : ofDay date.day = date := by
  obtain ⟨year, dayOfYear, hday, rfl⟩ := exists_march_date h
  obtain ⟨other, dayOfOther, hother, heq, hdate⟩ :=
    exists_march_ofDay (marchDate year dayOfYear).day
  rw [day_marchDate year dayOfYear hday] at heq
  obtain ⟨rfl, rfl⟩ := march_inj hday hother heq
  exact hdate

theorem isValid_next {date : Date} (h : date.IsValid) : date.next.IsValid := by
  obtain ⟨hone, htwelve, hfirst, -⟩ := h
  have hlength : ∀ year month, 1 ≤ monthLength year month := by
    intro year month
    unfold monthLength
    split <;> [split; split] <;> decide
  unfold next
  split
  · next hwithin => exact ⟨hone, htwelve, by dsimp only; omega, by dsimp only; omega⟩
  · split
    · exact ⟨by dsimp only; omega, by dsimp only; omega, Int.le_refl 1, hlength _ _⟩
    · exact ⟨Int.le_refl 1, by simp, Int.le_refl 1, hlength _ _⟩

/-- The next date falls on the next day. -/
theorem day_next {date : Date} (h : date.IsValid) : date.next.day = date.day + 1 := by
  obtain ⟨year, month, dayOfMonth⟩ := date
  obtain ⟨hone, htwelve, -, hlast⟩ := h
  dsimp only at hone htwelve hlast
  unfold next
  dsimp only
  split
  · rw [day_eq, day_eq]
    dsimp only
    omega
  · next hend =>
    have hdayOfMonth : dayOfMonth = monthLength year month := by omega
    subst hdayOfMonth
    rw [day_eq, day_eq]
    interval_cases month
    case «2» =>
      -- where February ends, the reckoning from March goes on to the next year
      have hmarch := marchStart_succ (year - 1)
      rw [Int.sub_add_cancel] at hmarch
      cases hleap : isLeap year with
      | false => simp [monthLength, hleap] at hmarch ⊢; omega
      | true => simp [monthLength, hleap] at hmarch ⊢; omega
    all_goals
      simp [monthLength]
      omega

theorem ofDay_succ (day : Int) : ofDay (day + 1) = (ofDay day).next := by
  have hvalid := isValid_ofDay day
  rw [← ofDay_day (isValid_next hvalid), day_next hvalid, day_ofDay]

/-- **The days have their dates by the calendar.** -/
theorem fallsOn_iff {date : Date} {day : Int} : date.FallsOn day ↔ date = ofDay day := by
  constructor
  · intro h
    induction h with
    | epoch => decide
    | next _ ih => rw [ih, ofDay_succ]
    | @previous date day hvalid _ ih =>
        have hnext := day_next hvalid
        rw [ih, day_ofDay] at hnext
        rw [← ofDay_day hvalid]
        congr 1
        omega
  · rintro rfl
    -- from 1 January 1970 in both directions
    induction day with
    | zero => exact .epoch
    | succ day ih =>
        rw [ofDay_succ]
        exact ih.next
    | pred day ih =>
        refine .previous (isValid_ofDay _) ?_
        rw [← ofDay_succ, Int.sub_add_cancel]
        exact ih

/-- One date comes before another one: the first of year, month and day that differs decides. -/
def Before (date other : Date) : Prop :=
  date.year < other.year ∨ date.year = other.year ∧
    (date.month < other.month ∨ date.month = other.month ∧ date.dayOfMonth < other.dayOfMonth)

/-- **Of two days the earlier one has the earlier date.** -/
theorem before_of_day_lt {date other : Date} (hdate : date.IsValid) (hother : other.IsValid)
    (h : date.day < other.day) : date.Before other := by
  obtain ⟨year, dayOfYear, hday, rfl⟩ := exists_march_date hdate
  obtain ⟨otherYear, otherDay, hotherDay, rfl⟩ := exists_march_date hother
  have hcount := day_marchDate year dayOfYear hday
  have hotherCount := day_marchDate otherYear otherDay hotherDay
  have hlength := marchStart_succ year
  have hotherLength := marchStart_succ otherYear
  have hmarch : year < otherYear ∨ year = otherYear ∧ dayOfYear < otherDay := by
    rcases lt_trichotomy year otherYear with hless | rfl | hless
    · exact .inl hless
    · exact .inr ⟨rfl, by omega⟩
    · have hmono := marchStart_mono (Int.add_one_le_iff.mpr hless)
      omega
  have hwithin : dayOfYear < 366 ∧ otherDay < 366 := by
    constructor
    · split at hlength <;> omega
    · split at hotherLength <;> omega
  -- January and February are the end of a year that began in March of the calendar year before
  clear hcount hotherCount hlength hotherLength h
  unfold Before marchDate
  dsimp only
  split <;> split <;> omega

end Date

end Logbook.Calendar
