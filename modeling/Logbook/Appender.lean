import Logbook.Notice

/-!
# Logbook — appenders

An appender takes finished records, one at a time and without a line feed, to where they are kept.
It may refuse a record or crash on it; the delivery says which, and never more than one notice
follows from it.

* **`Delivery`** — how handing over a record ended.
* **`Appender`** — what a type must offer to take records.
-/

namespace Logbook

/-- How handing over a record ended. -/
inductive Delivery where
  | accepted
  | refused (failure : Failure)
  /-- The appender crashed, and left a text or nothing readable. -/
  | crashed (last : Option Text)
  deriving DecidableEq, Repr

/-- The notice that a delivery calls for, if it was not accepted. -/
def Delivery.notice? (appender logger : Text) : Delivery → Option Notice
  | .accepted => none
  | .refused failure => some (.appendFailed appender logger failure)
  | .crashed last => some (.appendCrashed appender logger last)

/-- A type whose values take records. -/
class Appender (α : Type) where
  /-- The name by which notices speak of it. -/
  name : α → Text
  /-- Takes one record. -/
  append : α → Text → Delivery × α
  /-- Passes on what is still held back. -/
  flush : α → Except Failure Unit × α
  /-- What becomes of it when nobody uses it any more. -/
  release : α → α

end Logbook
