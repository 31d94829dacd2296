import Logbook.Failure
import Logbook.Text.Blank
import Logbook.Text.Inspect
import Logbook.Text.Numeral
import Logbook.Zone.Region

/-!
# Logbook — time zones

The zone in which the time of a record is written: that of the system, UTC, a fixed offset, or the
civil time of a region.

* **`Zone.read`** — a zone by its id: `UTC` and its short forms, an offset such as `+05:30`,
  `-0800` or `GMT+2`, or the name of a region.
* **`Zone.offsetAt`** — the offset in force at an instant.

Regions and the clocks of the system are those of the host (`CivilTime`).

An offset without a colon has its minutes in its last two bytes. Where these begin inside a
character there is no way to cut it, and reading breaks off (`Breakdown.cutInsideCharacter`).
-/

namespace Logbook

/-- The zone in which times are written. -/
inductive Zone where
  /-- The zone of the system. -/
  | system
  | utc
  /-- A fixed number of seconds east of UTC. -/
  | fixed (east : Int)
  | named (region : Region)
  deriving DecidableEq, Repr

namespace Zone

/-- The ids of UTC. -/
def utcIds : List Text :=
  ["UTC".toList, "GMT".toList, "UT".toList, "Z".toList]

/-- What may stand in front of an offset; of two that fit, the first one counts. -/
def offsetMarks : List Text :=
  ["UTC".toList, "GMT".toList, "UT".toList]

/-- The id without the mark in front of it. -/
def dropMark (id : Text) : Text :=
  (offsetMarks.findSome? fun mark => mark.isPrefixOf? id).getD id

/-- Cuts off the last two bytes of a text that has more than two. -/
def cutTwoBytes (digits : Text) : Except Breakdown (Text × Text) :=
  match digits.reverse with
  | c :: d :: rest =>
    if c.utf8Size = 2 then .ok ((d :: rest).reverse, [c])
    else if c.utf8Size = 1 ∧ d.utf8Size = 1 then .ok (rest.reverse, [d, c])
    else .error (.cutInsideCharacter digits)
  | _ => .error (.cutInsideCharacter digits)

/-- Cuts an unsigned offset into its hours and its minutes: at the first colon, or else in front of
the last two bytes; two bytes or fewer are hours alone. -/
def cutOffset (digits : Text) : Except Breakdown (Text × Text) :=
  if ':' ∈ digits then
    .ok (digits.takeWhile (· != ':'), (digits.dropWhile (· != ':')).drop 1)
  else if Text.byteLength digits ≤ 2 then .ok (digits, ['0'])
  else cutTwoBytes digits

/-- Reads an unsigned offset in seconds, of at most 18 hours and 59 minutes. -/
def readOffset (digits : Text) : Except Breakdown (Option Int) := do
  let (hours, minutes) ← cutOffset digits
  return do
    let hours ← Numeral.readNatural? hours
    let minutes ← Numeral.readNatural? minutes
    if hours ≤ 18 ∧ minutes ≤ 59 then some (3600 * hours + 60 * minutes) else none

/-- Reads a zone id; blanks around it do not count, and blanks alone are no id. An id that goes on
with a sign is an offset or nothing, never a region. -/
def read [CivilTime] (id : Text) : Except Breakdown (Option Zone) :=
  let id := Text.trim id
  if id.isEmpty then .ok none
  else if id ∈ utcIds then .ok (some utc)
  else
    match dropMark id with
    | '+' :: digits => do return (← readOffset digits).map fixed
    | '-' :: digits => do return (← readOffset digits).map fun east => fixed (-east)
    | _ => .ok ((CivilTime.region? id).map named)

/-- The offset in force at an instant, in seconds east of UTC. -/
def offsetAt [CivilTime] (zone : Zone) (second : Int) : Int :=
  match zone with
  | system => CivilTime.systemOffset second
  | utc => 0
  | fixed east => east
  | named region => CivilTime.regionOffset region second

/-- An offset with its sign, hours and minutes. -/
def offsetText (east : Int) : Text :=
  let minutes := east.natAbs / 60
  (if east < 0 then '-' else '+')
    :: (Numeral.atLeast 2 (minutes / 60) ++ ':' :: Numeral.atLeast 2 (minutes % 60))

/-- The zone in inspection text. -/
def inspect : Zone → Text
  | system => "Local".toList
  | utc => "Utc".toList
  | fixed east => Inspect.variant "Fixed" (offsetText east)
  | named region => Inspect.variant "Named" region.name

end Zone

end Logbook
