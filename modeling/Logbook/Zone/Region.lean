import Logbook.Calendar
import Logbook.Text

/-!
# Logbook — civil time

Which regions there are, how far their clocks run ahead of UTC at an instant, and how far those of
the system do, is for the host to know: it has a time zone database and a clock. The library asks
and takes the answers as they come.

* **`Region`** — a region with a civil time of its own.
* **`CivilTime`** — what the host answers.
* **`Almanac`** — a small database to go on with: twenty regions by the rules of the present (in
  force since 2007 in North America and 2008 in Australia and Oceania), and a system on UTC.
-/

namespace Logbook

/-- A region with a civil time of its own, by its identifier. -/
structure Region where
  name : Text
  deriving DecidableEq, Repr

/-- What the host knows of civil time. Offsets are in seconds east of UTC. -/
class CivilTime where
  /-- The region with an identifier, if there is one. -/
  region? : Text → Option Region
  /-- The offset of a region at an instant. -/
  regionOffset : Region → Int → Int
  /-- The offset of the clocks of the system at an instant. -/
  systemOffset : Int → Int

namespace Almanac

/-- Hours and minutes in seconds. -/
def clock (hours minutes : Int) : Int :=
  3600 * hours + 60 * minutes

/-- A yearly change of clocks: on the first Sunday on or after a day of a month, at a reading of
the clocks as they run before the change. -/
structure Switch where
  month : Int
  fromDay : Int
  reading : Int

/-- Summer time: by how much clocks go forward, and when they go forward and back. -/
structure Summer where
  gain : Int
  begins : Switch
  ends : Switch

/-- The civil time of a region: its offset east of UTC in seconds, and its summer time. -/
structure Schedule where
  offset : Int
  summer : Option Summer

/-- The instant of a change in a year, for clocks that run `offset` seconds east of UTC. -/
def Switch.instant (switch : Switch) (offset year : Int) : Int :=
  Calendar.daySeconds * Calendar.sundayFrom ⟨year, switch.month, switch.fromDay⟩
    + switch.reading - offset

/-- Clocks change on the last Sundays of March and October at 01:00 UTC. -/
def europe (offset : Int) : Schedule :=
  ⟨offset, some ⟨clock 1 0, ⟨3, 25, offset + clock 1 0⟩, ⟨10, 25, offset + clock 2 0⟩⟩⟩

/-- Clocks change on the second Sunday of March and the first of November, at 02:00. -/
def northAmerica (offset : Int) : Schedule :=
  ⟨offset, some ⟨clock 1 0, ⟨3, 8, clock 2 0⟩, ⟨11, 1, clock 2 0⟩⟩⟩

/-- Clocks do not change. -/
def constant (offset : Int) : Schedule :=
  ⟨offset, none⟩

/-- The regions of the almanac, by their identifiers. -/
def schedules : List (Text × Schedule) :=
  [("Europe/Berlin".toList, europe (clock 1 0)),
   ("Europe/London".toList, europe 0),
   ("America/New_York".toList, northAmerica (clock (-5) 0)),
   ("America/Los_Angeles".toList, northAmerica (clock (-8) 0)),
   ("America/St_Johns".toList, northAmerica (clock (-3) (-30))),
   ("Australia/Sydney".toList,
    ⟨clock 10 0, some ⟨clock 1 0, ⟨10, 1, clock 2 0⟩, ⟨4, 1, clock 3 0⟩⟩⟩),
   ("Australia/Lord_Howe".toList,
    ⟨clock 10 30, some ⟨clock 0 30, ⟨10, 1, clock 2 0⟩, ⟨4, 1, clock 2 0⟩⟩⟩),
   ("Pacific/Chatham".toList,
    ⟨clock 12 45, some ⟨clock 1 0, ⟨9, 24, clock 2 45⟩, ⟨4, 1, clock 3 45⟩⟩⟩),
   ("America/Sao_Paulo".toList, constant (clock (-3) 0)),
   ("Asia/Kolkata".toList, constant (clock 5 30)),
   ("Asia/Tokyo".toList, constant (clock 9 0)),
   ("Asia/Kathmandu".toList, constant (clock 5 45)),
   ("Pacific/Kiritimati".toList, constant (clock 14 0)),
   ("Pacific/Marquesas".toList, constant (clock (-9) (-30))),
   ("Etc/GMT+5".toList, constant (clock (-5) 0)),
   ("Etc/GMT-14".toList, constant (clock 14 0)),
   ("Etc/UTC".toList, constant 0),
   ("Zulu".toList, constant 0),
   ("UCT".toList, constant 0),
   ("GMT0".toList, constant 0)]

/-- Whether summer time is in force at an instant of a year. It may span the turn of the year. -/
def Summer.isOn (summer : Summer) (offset year second : Int) : Bool :=
  let begins := summer.begins.instant offset year
  let ends := summer.ends.instant (offset + summer.gain) year
  if begins ≤ ends then begins ≤ second && second < ends
  else !(ends ≤ second && second < begins)

/-- The offset in force at an instant, in seconds east of UTC. -/
def Schedule.offsetAt (schedule : Schedule) (second : Int) : Int :=
  match schedule.summer with
  | none => schedule.offset
  | some summer =>
    let year := (Calendar.Date.ofDay (second / Calendar.daySeconds)).year
    if summer.isOn schedule.offset year second then schedule.offset + summer.gain
    else schedule.offset

end Almanac

/-- The civil time of the almanac. The case of identifiers counts. -/
instance Almanac.civilTime : CivilTime where
  region? id := (Almanac.schedules.lookup id).map fun _ => ⟨id⟩
  regionOffset region second :=
    ((Almanac.schedules.lookup region.name).map fun schedule => schedule.offsetAt second).getD 0
  systemOffset _ := 0

end Logbook
