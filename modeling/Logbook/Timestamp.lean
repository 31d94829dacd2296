import Logbook.Zone

/-!
# Logbook — timestamps

The time of a record is written as `yyyy-MM-dd HH:mm:ss.mmm`. The civil part is worked out once for
each whole second: a stamper keeps the last one it wrote.

* **`Timestamp.secondText`** — the civil time of a whole second, in a zone.
* **`Timestamp.text`** — the time of an instant, by floor division into seconds and milliseconds.
* **`Stamper`** — the same text by way of the kept second.
-/

namespace Logbook

namespace Timestamp

/-- The first second that has a date: the beginning of the year -262143. -/
def firstSecond : Int :=
  Calendar.daySeconds * (Calendar.Date.mk (-262143) 1 1).day

/-- The second after the last one that has a date, which ends the year 262142. -/
def endSecond : Int :=
  Calendar.daySeconds * (Calendar.Date.mk 262143 1 1).day

/-- A year: four digits from year 0 to 9999, and otherwise a sign and at least four digits. -/
def yearText (year : Int) : Text :=
  if year < 0 then '-' :: Numeral.atLeast 4 year.natAbs
  else if year < 10000 then Numeral.lastDigits 4 year.toNat
  else '+' :: Numeral.atLeast 4 year.toNat

/-- Two digits. -/
def pair (n : Int) : Text :=
  Numeral.lastDigits 2 n.toNat

/-- The civil date and time of day, of seconds counted on the local clock. -/
def civilText (clock : Int) : Text :=
  let date := Calendar.Date.ofDay (clock / Calendar.daySeconds)
  let second := clock % Calendar.daySeconds
  yearText date.year ++ '-' :: pair date.month ++ '-' :: pair date.dayOfMonth
    ++ ' ' :: pair (second / 3600) ++ ':' :: pair (second / 60 % 60) ++ ':' :: pair (second % 60)

/-- A whole second: its civil time in a zone, or its number where it has no date. Whether it has
one is decided before the offset of the zone is added. -/
def secondText [CivilTime] (zone : Zone) (second : Int) : Text :=
  if firstSecond ≤ second ∧ second < endSecond then civilText (second + zone.offsetAt second)
  else Numeral.integer second

/-- The milliseconds within a second, in three digits behind a point. -/
def fractionText (millis : Int) : Text :=
  '.' :: Numeral.lastDigits 3 (millis % 1000).toNat

/-- The text of an instant, in milliseconds since the epoch. -/
def text [CivilTime] (zone : Zone) (millis : Int) : Text :=
  secondText zone (millis / 1000) ++ fractionText millis

end Timestamp

/-- Writes timestamps in one zone, keeping the text of the last whole second. -/
structure Stamper where
  zone : Zone
  kept : Option (Int × Text)

namespace Stamper

/-- A stamper that keeps nothing yet. -/
def new (zone : Zone) : Stamper :=
  ⟨zone, none⟩

/-- The text of a whole second, and what is kept afterwards. While another writer is at it
(`busy`), what is kept is neither used nor changed. -/
def second [CivilTime] (stamper : Stamper) (busy : Bool) (second : Int) : Text × Stamper :=
  if busy then (Timestamp.secondText stamper.zone second, stamper)
  else
    match stamper.kept with
    | some (last, text) =>
      if last = second then (text, stamper)
      else
        let text := Timestamp.secondText stamper.zone second
        (text, { stamper with kept := some (second, text) })
    | none =>
      let text := Timestamp.secondText stamper.zone second
      (text, { stamper with kept := some (second, text) })

/-- The text of an instant in milliseconds, and the stamper afterwards. -/
def stamp [CivilTime] (stamper : Stamper) (busy : Bool) (millis : Int) : Text × Stamper :=
  let (text, stamper) := stamper.second busy (millis / 1000)
  (text ++ Timestamp.fractionText millis, stamper)

end Stamper

end Logbook
