import Logbook.Argument
import Logbook.Level

/-!
# Logbook — events

One request to log, which is rendered and then forgotten.
-/

namespace Logbook

/-- A request to log. -/
structure Event where
  level : Level
  /-- The time, in milliseconds since the epoch. -/
  millis : Int
  /-- The label of the thread it comes from. -/
  label : Option Text
  /-- The error it is about; it goes before an error among the arguments. -/
  error : Option ErrorChain
  template : Text
  arguments : List Argument

/-- When and from where something is logged: the time in milliseconds and the label of the thread. -/
structure Origin where
  millis : Int
  label : Option Text

namespace Event

/-- An event from an origin, without an error. -/
def new (origin : Origin) (level : Level) (template : Text) (arguments : List Argument) : Event :=
  { level, millis := origin.millis, label := origin.label, error := none, template, arguments }

/-- The event in inspection text. -/
def inspect (event : Event) : Text :=
  Inspect.fields "LogEvent"
    [("level", event.level.inspect),
     ("timestamp_millis", Numeral.integer event.millis),
     ("thread_label", Inspect.option (event.label.map Inspect.quoted)),
     ("error", Inspect.option (event.error.map fun chain => Inspect.quoted chain.description)),
     ("template", Inspect.quoted event.template),
     ("args", Inspect.list (Argument.inspectAll event.arguments))]

end Event

end Logbook
