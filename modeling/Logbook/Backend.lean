import Logbook.Appender
import Logbook.Mute
import Logbook.Record

/-!
# Logbook — the backend

A registry, a renderer and an appender, wired together. An event that a logger lets through is
rendered once and handed over once. Whatever the appender does with the record, a refusal or a crash
becomes a notice, and the caller hears of it only if the error stream refuses that notice.

* **`Backend.emit`** — renders an event of a logger and hands the record over.
* **`Backend.log`** — the same if the logger's level lets the event through.
* **`Backend.mute`** — hides the stacks of loggers and of all below them.
* **`Backend.shutDown`** — the last flush, and the release of the appender.
-/

namespace Logbook

/-- A registry of loggers, a renderer and an appender. -/
structure Backend (α : Type) where
  registry : Registry
  renderer : Renderer
  appender : α

namespace Backend

variable {α : Type} [Appender α]

/-- A backend without loggers. -/
def new (settings : Settings) (layout : Layout) (appender : α) : Backend α :=
  ⟨Registry.new settings, Renderer.new layout, appender⟩

/-- The logger with this name, made at the first request. -/
def logger (backend : Backend α) (name : Text) : Reported (Handle × Backend α) := do
  let (handle, registry) ← backend.registry.obtain name
  return (handle, { backend with registry })

/-- Whether the logger at a place lets events of a level through. -/
def isEnabled (backend : Backend α) (handle : Handle) (level : Level) : Bool :=
  (backend.registry.identity? handle).any fun logger => logger.level.admits level

/-- Hands a record of a logger over to the appender. A notice speaks of the appender by the name it
has afterwards. -/
def deliver (backend : Backend α) (logger record : Text) : Reported (Backend α) :=
  let (delivery, appender) := Appender.append backend.appender record
  ⟨{ backend with appender }, (delivery.notice? (Appender.name appender) logger).toList⟩

/-- Renders an event of the logger at a place and hands the record over, whatever its level. -/
def emit [CivilTime] (backend : Backend α) (handle : Handle) (event : Event) :
    Reported (Backend α) :=
  match backend.registry.identity? handle with
  | none => pure backend
  | some logger =>
    let (record, renderer) := backend.renderer.render logger event
    { backend with renderer }.deliver logger.name record

/-- Emits an event if the logger at a place lets its level through. -/
def log [CivilTime] (backend : Backend α) (handle : Handle) (event : Event) :
    Reported (Backend α) :=
  if backend.isEnabled handle event.level then backend.emit handle event else pure backend

/-- Makes a logger hide or show stacks. -/
def setHidesStacks (backend : Backend α) (handle : Handle) (hides : Bool) : Backend α :=
  { backend with registry := backend.registry.setHidesStacks handle hides }

/-- Puts other settings in force, for the loggers made from now on. -/
def replaceSettings (backend : Backend α) (settings : Settings) : Backend α :=
  { backend with registry := backend.registry.replaceSettings settings }

/-- Mutes the loggers of these names and all below them. -/
def mute (backend : Backend α) (names : List Text) : Reported (Mute × Backend α) := do
  let (mute, registry) ← Mute.ofNames backend.registry names
  return (mute, { backend with registry })

/-- Drops a mute. -/
def unmute (backend : Backend α) (mute : Mute) : Backend α :=
  { backend with registry := mute.drop backend.registry }

/-- Passes on what the appender holds back. -/
def flush (backend : Backend α) : Except Failure Unit × Backend α :=
  let (outcome, appender) := Appender.flush backend.appender
  (outcome, { backend with appender })

/-- Flushes for the last time and releases the appender. A failing flush leaves a notice. -/
def shutDown (backend : Backend α) : Reported (Backend α) :=
  let (outcome, backend) := backend.flush
  let notices :=
    match outcome with
    | .ok () => []
    | .error failure => [Notice.shutdownFlushFailed (Appender.name backend.appender) failure]
  ⟨{ backend with appender := Appender.release backend.appender }, notices⟩

/-- The backend in inspection text. -/
def inspect (backend : Backend α) : Text :=
  Inspect.fields "LoggingBackend"
    [("loggers", Numeral.decimal backend.registry.size),
     ("formatter", backend.renderer.layout.inspect),
     ("appender", Inspect.quoted (Appender.name backend.appender))]

/-- A logger of the backend in inspection text. -/
def inspectLogger (backend : Backend α) (logger : Identity) : Text :=
  Inspect.fields "Logger"
    [("name", Inspect.quoted logger.name),
     ("level", logger.level.inspect),
     ("hide_stacks", Inspect.truth logger.hidesStacks),
     ("appender", Inspect.quoted (Appender.name backend.appender))]

end Backend

end Logbook
