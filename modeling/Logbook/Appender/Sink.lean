import Logbook.Appender.Console
import Logbook.Appender.Memory
import Logbook.Appender.Trial

/-!
# Logbook — the appenders at hand

The appenders of the library as one type, for a host that chooses among them when it starts.
-/

namespace Logbook

/-- One of the appenders of the library. -/
inductive Sink where
  | memory (memory : Memory)
  | console (console : Console)
  | stream (stream : Stream Collector)
  | trial (trial : Trial)

namespace Sink

/-- Takes a record. -/
def append (record : Text) : Sink → Delivery × Sink
  | memory m => (Appender.append m record).map id memory
  | console c => (Appender.append c record).map id console
  | stream s => (Appender.append s record).map id stream
  | trial t => (Appender.append t record).map id trial

/-- Passes on what is held back. -/
def flush : Sink → Except Failure Unit × Sink
  | memory m => (Appender.flush m).map id memory
  | console c => (Appender.flush c).map id console
  | stream s => (Appender.flush s).map id stream
  | trial t => (Appender.flush t).map id trial

/-- What becomes of a sink that nobody uses any more. -/
def release : Sink → Sink
  | memory m => memory (Appender.release m)
  | console c => console (Appender.release c)
  | stream s => stream (Appender.release s)
  | trial t => trial (Appender.release t)

/-- The name of a sink. -/
def name : Sink → Text
  | memory m => Appender.name m
  | console c => Appender.name c
  | stream s => Appender.name s
  | trial t => Appender.name t

instance : Appender Sink where
  name := name
  append sink record := sink.append record
  flush := flush
  release := release

/-- Closes a stream; the other sinks have nothing to close. -/
def close : Sink → Except Failure Unit × Sink
  | memory m => (.ok (), memory m)
  | console c => (.ok (), console c)
  | stream s => s.close.map id stream
  | trial t => (.ok (), trial t)

/-- Tells a sink how to behave from now on; the memory and the console cannot fail. -/
def rehearse (conduct : Conduct) (refusesFlush : Bool) : Sink → Sink
  | memory m => memory m
  | console c => console c
  | stream s =>
    stream { s with
      destination := { s.destination with refusesWrites := conduct != .keep, refusesFlush } }
  | trial t => trial { t with conduct, refusesFlush }

/-- The records that a sink keeps as such. -/
def records : Sink → List Text
  | memory m => m.records
  | console _ => []
  | stream _ => []
  | trial _ => []

/-- The text that a sink has written. -/
def written : Sink → Text
  | memory m => m.contents
  | console c => c.written
  | stream s => s.destination.written
  | trial t => t.written

end Sink

end Logbook
