import Logbook.Appender.Sink
import Logbook.Backend
import Logbook.Settings.Folder

/-!
# Logbook — setting up a backend

A backend is made from a blueprint, in which every part may be left open. The layout is the one
given, or else the one that the settings ask for; a zone that is given goes before either. Without
an appender, records go to the error stream of the console.

* **`Blueprint.build`** — the backend of a blueprint.
* **`Blueprint.ofDefaultFile`** — a blueprint with the settings of the default file.
-/

namespace Logbook

/-- The parts of a backend, as far as they are given. -/
structure Blueprint where
  settings : Option Settings := none
  appender : Option Sink := none
  layout : Option Layout := none
  zone : Option Zone := none

namespace Blueprint

/-- The layout of the blueprint, before a zone that is given of its own. -/
def baseLayout [CivilTime] (blueprint : Blueprint) (settings : Settings) :
    Except Breakdown (Reported Layout) :=
  match blueprint.layout with
  | some layout => .ok (pure layout)
  | none => Layout.ofSettings settings

/-- The backend of the blueprint. -/
def build [CivilTime] (blueprint : Blueprint) : Except Breakdown (Reported (Backend Sink)) := do
  let settings := blueprint.settings.getD Settings.empty
  let layout ← blueprint.baseLayout settings
  return do
    let layout ← layout
    let layout := { layout with zone := blueprint.zone.getD layout.zone }
    return Backend.new settings layout (blueprint.appender.getD (.console Console.standard))

/-- A blueprint with settings alone. -/
def ofSettings (settings : Settings) : Blueprint :=
  { settings := some settings }

/-- A blueprint with the settings of the default file of a folder. -/
def ofDefaultFile (folder : Folder) : Reported Blueprint := do
  return ofSettings (← Settings.ofDefaultFile folder)

/-- The blueprint in inspection text. -/
def inspect (blueprint : Blueprint) : Text :=
  Inspect.fields "LoggingBackendBuilder"
    [("configuration", Inspect.option (blueprint.settings.map Settings.inspect)),
     ("appender", Inspect.option (blueprint.appender.map fun sink => Inspect.quoted sink.name)),
     ("formatter_config", Inspect.option (blueprint.layout.map Layout.inspect)),
     ("time_zone", Inspect.option (blueprint.zone.map Zone.inspect))]

end Blueprint

end Logbook
