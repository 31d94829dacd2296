import Logbook.Appender.Stream

/-!
# Logbook — rehearsed faults

How a host behaves when records cannot be kept is tried out with sinks that fail on demand.

* **`Collector`** — a destination that keeps its text and can be told to refuse writes and flushes.
* **`Trial`** — an appender that can be told to refuse records, or to crash on them.
-/

namespace Logbook

/-- A destination that keeps what is written, and may be told to refuse. -/
structure Collector where
  written : Text
  refusesWrites : Bool
  refusesFlush : Bool

namespace Collector

/-- A collector that refuses nothing. -/
def empty : Collector := ⟨[], false, false⟩

instance : Destination Collector where
  write collector text :=
    if collector.refusesWrites then (.error "pipe closed".toList, collector)
    else (.ok (), { collector with written := collector.written ++ text })
  flush collector :=
    (if collector.refusesFlush then .error "flush refused".toList else .ok (), collector)

end Collector

/-- What an appender on trial does with a record. -/
inductive Conduct where
  /-- Keeps it. -/
  | keep
  /-- Refuses it as a writer. -/
  | refuse
  /-- Fails to write it. -/
  | failToWrite
  /-- Crashes with a fixed text. -/
  | crash
  /-- Crashes with a text that names the appender. -/
  | crashByName
  /-- Crashes without a readable text. -/
  | crashSilently
  deriving DecidableEq, Repr

/-- An appender on trial. -/
structure Trial where
  name : Text
  written : Text
  conduct : Conduct
  refusesFlush : Bool

namespace Trial

/-- The name of an appender on trial that is given no other. -/
def defaultName : Text := "faulty".toList

/-- An appender that keeps its records for now. -/
def new (name : Text) : Trial :=
  ⟨name, [], .keep, false⟩

/-- Takes a record as the trial asks for. -/
def append (trial : Trial) (record : Text) : Delivery × Trial :=
  match trial.conduct with
  | .keep => (.accepted, { trial with written := trial.written ++ record ++ ['\n'] })
  | .refuse => (.refused (.writer "sink gone".toList), trial)
  | .failToWrite => (.refused (.io "disk full".toList), trial)
  | .crash => (.crashed (some "appender blew up".toList), trial)
  | .crashByName => (.crashed (some ("blew up in ".toList ++ trial.name)), trial)
  | .crashSilently => (.crashed none, trial)

instance : Appender Trial where
  name trial := trial.name
  append := append
  flush trial :=
    (if trial.refusesFlush then .error (.writer "flush refused".toList) else .ok (), trial)
  release trial := trial

end Trial

end Logbook
