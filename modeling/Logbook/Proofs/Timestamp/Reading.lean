import Logbook.Proofs.Calendar
import Logbook.Proofs.Timestamp

/-!
# Logbook — a timestamp determines its instant

In UTC and in a zone of a fixed offset the text of an instant is read back. Behind the number in
front stands either the rest of a civil date and time or the milliseconds alone, and a reader that
takes the text apart field by field needs nothing but the offset to find the instant.

* **`Civil`** — a date and a time of day. A clock shows one (`Civil.ofClock`), which is valid and
  says what the clock says; `civilText_eq`: this one is written.
* **`read?`** — the reader. Each of its parts has one lemma that says how it takes its field off the
  front of a text; `read?_civil` and `read?_integer` put them together for the two forms.
* **`read?_text`** — what is written is read back.
* **`Stamper.stamp_determines_instant`** — the headline, about a stamper after any number of stamps.
-/

namespace Logbook

/-! ## Zones of a fixed offset -/

namespace Zone

/-- At all times the clocks of the zone are this many seconds ahead of UTC. -/
inductive Keeps : Zone → Int → Prop where
  | utc : Keeps utc 0
  | fixed (east : Int) : Keeps (fixed east) east

theorem Keeps.offsetAt_eq [CivilTime] {zone : Zone} {east : Int} (h : zone.Keeps east)
    (second : Int) : zone.offsetAt second = east := by
  cases h with
  | utc => rfl
  | fixed => rfl

end Zone

namespace Timestamp

open Calendar Numeral

/-! ## Civil dates and times -/

/-- A date and a time of day. -/
structure Civil where
  date : Date
  hour : Int
  minute : Int
  second : Int

namespace Civil

structure IsValid (civil : Civil) : Prop where
  date : civil.date.IsValid
  hour : 0 ≤ civil.hour ∧ civil.hour < 24
  minute : 0 ≤ civil.minute ∧ civil.minute < 60
  second : 0 ≤ civil.second ∧ civil.second < 60

/-- The seconds on the clock that shows this date and time. -/
def clock (civil : Civil) : Int :=
  86400 * civil.date.day + 3600 * civil.hour + 60 * civil.minute + civil.second

/-- The date and time that a clock shows. -/
def ofClock (clock : Int) : Civil where
  date := Date.ofDay (clock / 86400)
  hour := clock % 86400 / 3600
  minute := clock % 86400 / 60 % 60
  second := clock % 86400 % 60

/-- The fields behind the year. -/
def fields (civil : Civil) : Text :=
  '-' :: pair civil.date.month ++ '-' :: pair civil.date.dayOfMonth ++ ' ' :: pair civil.hour
    ++ ':' :: pair civil.minute ++ ':' :: pair civil.second

def text (civil : Civil) : Text :=
  yearText civil.date.year ++ civil.fields

/-- The first second that has a date, in UTC. -/
def earliest : Civil :=
  ⟨⟨-262143, 1, 1⟩, 0, 0, 0⟩

/-- The last second that has a date, in UTC. -/
def latest : Civil :=
  ⟨⟨262142, 12, 31⟩, 23, 59, 59⟩

theorem isValid_ofClock (clock : Int) : (ofClock clock).IsValid where
  date := Date.isValid_ofDay _
  hour := by simp only [ofClock]; omega
  minute := by simp only [ofClock]; omega
  second := by simp only [ofClock]; omega

theorem clock_ofClock (clock : Int) : (ofClock clock).clock = clock := by
  simp only [Civil.clock, ofClock, Date.day_ofDay]
  omega

end Civil

theorem civilText_eq (clock : Int) : civilText clock = (Civil.ofClock clock).text := by
  simp [civilText, Civil.text, Civil.fields, Civil.ofClock, daySeconds]

/-! ## The reader -/

/-- Reads an integer at the front of a text. -/
def readFront? : Text → Option (Int × Text)
  | [] => none
  | c :: rest => do
    let number ← readInteger? (c :: rest.takeWhile Char.isDigit)
    some (number, rest.dropWhile Char.isDigit)

/-- Passes over a character that has to stand there. -/
def skip? (c : Char) : Text → Option Text
  | [] => none
  | d :: rest => if d = c then some rest else none

/-- Reads just so many digits. -/
def readDigits? (width : Nat) (text : Text) : Option (Int × Text) := do
  let number ← readNatural? (text.take width)
  if text.length < width then none else some (number, text.drop width)

/-- Reads the fields behind a year. -/
def readFields? (year : Int) (text : Text) : Option (Civil × Text) := do
  let rest ← skip? '-' text
  let (month, rest) ← readDigits? 2 rest
  let rest ← skip? '-' rest
  let (dayOfMonth, rest) ← readDigits? 2 rest
  let rest ← skip? ' ' rest
  let (hour, rest) ← readDigits? 2 rest
  let rest ← skip? ':' rest
  let (minute, rest) ← readDigits? 2 rest
  let rest ← skip? ':' rest
  let (second, rest) ← readDigits? 2 rest
  some (⟨⟨year, month, dayOfMonth⟩, hour, minute, second⟩, rest)

/-- Reads the milliseconds at the end of a text. -/
def readFraction? (text : Text) : Option Int := do
  let rest ← skip? '.' text
  let (millis, rest) ← readDigits? 3 rest
  if rest = [] then some millis else none

/-- Reads an instant, in milliseconds, off a clock that is `east` seconds ahead of UTC. A number
without a date and time behind it counts the seconds itself. -/
def read? (east : Int) (text : Text) : Option Int := do
  let (number, rest) ← readFront? text
  match readFields? number rest with
  | some (civil, rest) =>
    let millis ← readFraction? rest
    some (1000 * (civil.clock - east) + millis)
  | none =>
    let millis ← readFraction? rest
    some (1000 * number + millis)

theorem readFront?_append {number rest : Text} {n : Int} (h : IsInteger number n)
    (hrest : ∀ c ∈ rest.head?, c.isDigit = false) :
    readFront? (number ++ rest) = some (n, rest) := by
  -- the first character may be a sign, and is read whatever it is
  obtain ⟨c, digits, rfl, hdigits⟩ := h.exists_cons
  have htake : (digits ++ rest).takeWhile Char.isDigit = digits := by
    rw [List.takeWhile_append_of_pos hdigits]
    cases rest with
    | nil => simp
    | cons d rest => simp [hrest d rfl]
  have hdrop : (digits ++ rest).dropWhile Char.isDigit = rest := by
    rw [List.dropWhile_append_of_pos hdigits]
    cases rest with
    | nil => rfl
    | cons d rest => simp [hrest d rfl]
  simp only [List.cons_append, readFront?, htake, hdrop, h.readInteger?_eq, Option.bind_eq_bind,
    Option.bind_some]

@[simp] theorem skip?_cons (c : Char) (rest : Text) : skip? c (c :: rest) = some rest := by
  simp [skip?]

theorem readDigits?_lastDigits {width n : Nat} (hwidth : 0 < width) (h : n < Nat.pow 10 width)
    (rest : Text) : readDigits? width (lastDigits width n ++ rest) = some ((n : Int), rest) := by
  have hlength := length_lastDigits width n
  have htake : (lastDigits width n ++ rest).take width = lastDigits width n := by
    rw [List.take_append_of_le_length hlength.ge, List.take_of_length_le hlength.le]
  have hdrop : (lastDigits width n ++ rest).drop width = rest := by
    rw [List.drop_append_of_le_length hlength.ge, List.drop_of_length_le hlength.le,
      List.nil_append]
  have hread := readNatural?_eq_some_iff.mpr (isNatural_lastDigits hwidth h)
  simp [readDigits?, htake, hdrop, hread, hlength]

theorem readDigits?_pair {n : Int} (h : 0 ≤ n ∧ n < 100) (rest : Text) :
    readDigits? 2 (pair n ++ rest) = some (n, rest) := by
  have hnat : n.toNat < Nat.pow 10 2 := by
    show n.toNat < 100
    omega
  rw [pair, readDigits?_lastDigits (by decide) hnat, Int.toNat_of_nonneg h.1]

theorem readFields?_fields {civil : Civil} (h : civil.IsValid) (rest : Text) :
    readFields? civil.date.year (civil.fields ++ rest) = some (civil, rest) := by
  have hlength : monthLength civil.date.year civil.date.month ≤ 31 := by
    unfold monthLength
    split <;> [split; split] <;> decide
  obtain ⟨⟨hone, htwelve, hfirst, hlast⟩, hhour, hminute, hsecond⟩ := h
  -- each field has two digits
  have hmonth : 0 ≤ civil.date.month ∧ civil.date.month < 100 := by omega
  have hday : 0 ≤ civil.date.dayOfMonth ∧ civil.date.dayOfMonth < 100 := by omega
  have hhour : 0 ≤ civil.hour ∧ civil.hour < 100 := by omega
  have hminute : 0 ≤ civil.minute ∧ civil.minute < 100 := by omega
  have hsecond : 0 ≤ civil.second ∧ civil.second < 100 := by omega
  simp only [readFields?, Civil.fields, List.cons_append, List.append_assoc, skip?_cons,
    readDigits?_pair hmonth, readDigits?_pair hday, readDigits?_pair hhour,
    readDigits?_pair hminute, readDigits?_pair hsecond, Option.bind_eq_bind, Option.bind_some]

theorem readFraction?_fractionText (millis : Int) :
    readFraction? (fractionText millis) = some (millis % 1000) := by
  have hnonneg : 0 ≤ millis % 1000 := Int.emod_nonneg millis (by decide)
  have hwithin : (millis % 1000).toNat < Nat.pow 10 3 := by
    show (millis % 1000).toNat < 1000
    omega
  have hread := readDigits?_lastDigits (by decide) hwithin []
  rw [List.append_nil, Int.toNat_of_nonneg hnonneg] at hread
  simp only [readFraction?, fractionText, skip?_cons, hread, Option.bind_eq_bind,
    Option.bind_some, if_true]

theorem isInteger_yearText (year : Int) : IsInteger (yearText year) year := by
  unfold yearText
  split
  · next hneg =>
    have h := IsInteger.negative (isNatural_atLeast (show 0 < 4 by decide) year.natAbs)
    rwa [show -(year.natAbs : Int) = year by omega] at h
  · next hnonneg =>
    have hnat : (year.toNat : Int) = year := Int.toNat_of_nonneg (by omega)
    split
    · next hshort =>
      have hwithin : year.toNat < Nat.pow 10 4 := by
        show year.toNat < 10000
        omega
      have h := IsInteger.unsigned (isNatural_lastDigits (by decide) hwithin)
      rwa [hnat] at h
    · have h := IsInteger.positive (isNatural_atLeast (show 0 < 4 by decide) year.toNat)
      rwa [hnat] at h

/-! ## Both forms -/

theorem read?_civil {civil : Civil} (h : civil.IsValid) (east millis : Int) :
    read? east (civil.text ++ fractionText millis)
      = some (1000 * (civil.clock - east) + millis % 1000) := by
  have hfront : readFront? (civil.text ++ fractionText millis)
      = some (civil.date.year, civil.fields ++ fractionText millis) := by
    rw [Civil.text, List.append_assoc]
    refine readFront?_append (isInteger_yearText _) ?_
    simp [Civil.fields]
  simp [read?, hfront, readFields?_fields h, readFraction?_fractionText]

theorem read?_integer (east second millis : Int) :
    read? east (integer second ++ fractionText millis) = some (1000 * second + millis % 1000) := by
  have hfront : readFront? (integer second ++ fractionText millis)
      = some (second, fractionText millis) := by
    refine readFront?_append (isInteger_integer second) ?_
    simp [fractionText]
  -- a point cannot be mistaken for the hyphen behind a year
  have hfields : readFields? second (fractionText millis) = none := by
    simp [readFields?, fractionText, skip?]
  simp [read?, hfront, hfields, readFraction?_fractionText]

/-! ## The text of an instant -/

/-- The second, counted in UTC, has a date. -/
def HasDate (second : Int) : Prop :=
  Civil.earliest.clock ≤ second ∧ second ≤ Civil.latest.clock

theorem hasDate_iff (second : Int) :
    HasDate second ↔ firstSecond ≤ second ∧ second < endSecond := by
  have hfirst : firstSecond = Civil.earliest.clock := by decide
  have hend : endSecond = Civil.latest.clock + 1 := by decide
  unfold HasDate
  rw [hfirst, hend]
  omega

section Fixed

variable [CivilTime] {zone : Zone} {east : Int}

theorem text_of_hasDate (hzone : zone.Keeps east) {millis : Int}
    (h : HasDate (millis / 1000)) :
    text zone millis = (Civil.ofClock (millis / 1000 + east)).text ++ fractionText millis := by
  rw [text, secondText, if_pos ((hasDate_iff _).mp h), hzone.offsetAt_eq, civilText_eq]

theorem text_of_not_hasDate {millis : Int}
    (h : ¬ HasDate (millis / 1000)) :
    text zone millis = integer (millis / 1000) ++ fractionText millis := by
  rw [text, secondText, if_neg (mt (hasDate_iff _).mpr h)]

/-- **What is written is read back.** -/
theorem read?_text (hzone : zone.Keeps east) (millis : Int) :
    read? east (text zone millis) = some millis := by
  by_cases h : HasDate (millis / 1000)
  · rw [text_of_hasDate hzone h, read?_civil (Civil.isValid_ofClock _), Civil.clock_ofClock]
    congr 1
    omega
  · rw [text_of_not_hasDate h, read?_integer]
    congr 1
    omega

end Fixed

end Timestamp

namespace Stamper

open Timestamp

/-- **A timestamp determines its instant.** In a zone of a fixed offset, whatever was stamped
before: the text is read back as the instant, and no other instant has it. Where the second has a
date, it is a valid date and time of the calendar with three digits for the milliseconds, and the
instant is that date and time less the offset; elsewhere it is the number of the second with these
digits. -/
theorem stamp_determines_instant [CivilTime] {zone : Zone} {east : Int}
    (hzone : zone.Keeps east) (earlier : List (Bool × Int)) (busy : Bool) (millis : Int) :
    let text := (((new zone).after earlier).stamp busy millis).1
    read? east text = some millis
      ∧ (∀ others contended other,
          (((new zone).after others).stamp contended other).1 = text → other = millis)
      ∧ (HasDate (millis / 1000) →
          ∃ (civil : Civil) (day : Int) (fraction : Nat),
            civil.IsValid ∧ civil.date.FallsOn day ∧ fraction < 1000
              ∧ text = civil.text ++ '.' :: Numeral.lastDigits 3 fraction
              ∧ millis = 1000 * (86400 * day + 3600 * civil.hour + 60 * civil.minute
                  + civil.second - east) + fraction)
      ∧ (¬ HasDate (millis / 1000) →
          text = Numeral.integer (millis / 1000)
            ++ '.' :: Numeral.lastDigits 3 (millis % 1000).toNat) := by
  intro text
  -- what was stamped before does not show
  have htext : text = Timestamp.text zone millis := stamp_after_new zone earlier busy millis
  have hread : read? east text = some millis := by
    rw [htext, read?_text hzone]
  refine ⟨hread, ?_, ?_, ?_⟩
  · intro others contended other hsame
    rw [← hsame, stamp_after_new, read?_text hzone] at hread
    exact Option.some.inj hread
  · intro hdate
    let civil := Civil.ofClock (millis / 1000 + east)
    have hclock : civil.clock = millis / 1000 + east := Civil.clock_ofClock _
    refine ⟨civil, civil.date.day, (millis % 1000).toNat, Civil.isValid_ofClock _, ?_, by omega,
      htext.trans (text_of_hasDate hzone hdate), ?_⟩
    · rw [Calendar.Date.fallsOn_iff, Calendar.Date.ofDay_day (Civil.isValid_ofClock _).date]
    · unfold Civil.clock at hclock
      omega
  · intro hdate
    exact htext.trans (text_of_not_hasDate hdate)

/-- An instant of 28 February 2000 in UTC, an hour ahead of it. -/
theorem stamp_determines_instant_leap_day :
    (Zone.fixed 3600).Keeps 3600
      ∧ (((new (.fixed 3600)).after [(false, 0)]).stamp false 951782399999).1
          = "2000-02-29 00:59:59.999".toList
      ∧ read? 3600 (((new (.fixed 3600)).after [(false, 0)]).stamp false 951782399999).1
          = some 951782399999 :=
  ⟨.fixed 3600, by decide, (stamp_determines_instant (.fixed 3600) [(false, 0)] false _).1⟩

end Stamper

end Logbook
