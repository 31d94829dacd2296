import Logbook.Backend

/-!
# Logbook — the facade

Programs that log through a common facade name their loggers by module paths, such as
`app::db::pool`, and hand over texts that are complete already. The facade turns a path into a
logger name and a text into an event without arguments.

* **`Facade.loggerName`** — the logger name of a path.
* **`Facade.isEnabled`**, **`Facade.log`**, **`Facade.flush`** — what the facade asks of a backend.
* **`Facade.install`** — a facade takes one backend, and then no other.
-/

namespace Logbook

/-- The priorities of the facade, from the most urgent. -/
inductive Priority where
  | error
  | warn
  | info
  | debug
  | trace
  deriving DecidableEq, Repr

namespace Priority

/-- All priorities, from the most urgent. -/
def all : List Priority :=
  [error, warn, info, debug, trace]

/-- The level of a priority. -/
def level : Priority → Level
  | error => .error
  | warn => .warn
  | info => .info
  | debug => .debug
  | trace => .trace

end Priority

/-- The least urgent priority that the facade hands on. -/
inductive Ceiling where
  | off
  | upTo (priority : Priority)
  deriving DecidableEq, Repr

/-- The ceiling that hands on just what a threshold lets through. -/
def Ceiling.ofLevel : Level → Ceiling
  | .trace => upTo .trace
  | .debug => upTo .debug
  | .info => upTo .info
  | .warn => upTo .warn
  | .error => upTo .error

/-- The name of a ceiling. -/
def Ceiling.name : Ceiling → Text
  | off => "OFF".toList
  | upTo priority => priority.level.name

namespace Facade

/-- Whether a path has a double colon. -/
def hasDoubleColon : Text → Bool
  | ':' :: ':' :: _ => true
  | _ :: rest => hasDoubleColon rest
  | [] => false

/-- The text with a dot in place of each double colon, from left to right. -/
def dotted : Text → Text
  | ':' :: ':' :: rest => '.' :: dotted rest
  | c :: rest => c :: dotted rest
  | [] => []

/-- The logger name of a path, if it is not the path itself. -/
def renamed? (path : Text) : Option Text :=
  if hasDoubleColon path then some (dotted path) else none

/-- The logger name of a path. -/
def loggerName (path : Text) : Text :=
  (renamed? path).getD path

variable {α : Type} [Appender α]

/-- Whether a priority is let through for a path. The logger is made if it is new. -/
def isEnabled (backend : Backend α) (path : Text) (priority : Priority) :
    Reported (Bool × Backend α) := do
  let (handle, backend) ← backend.logger (loggerName path)
  return (backend.isEnabled handle priority.level, backend)

/-- Logs a text for a path, if its priority is let through. The text is complete: it is a template
without arguments, so that nothing in it is a placeholder. -/
def log [CivilTime] (backend : Backend α) (origin : Origin) (path : Text) (priority : Priority)
    (text : Text) : Reported (Backend α) := do
  let (handle, backend) ← backend.logger (loggerName path)
  backend.log handle (Event.new origin priority.level text [])

/-- Passes on what the appender holds back. A failure leaves a notice. -/
def flush (backend : Backend α) : Reported (Backend α) :=
  let (outcome, backend) := backend.flush
  match outcome with
  | .ok () => ⟨backend, []⟩
  | .error failure => ⟨backend, [.facadeFlushFailed failure]⟩

/-- The adapter of a backend in inspection text. -/
def inspect (backend : Backend α) : Text :=
  Inspect.fields "LogAdapter" [("backend", backend.inspect)]

/-- The facade of a process: whether a backend is installed behind it, and its ceiling. -/
structure Socket where
  isTaken : Bool
  ceiling : Ceiling

/-- Installs a backend behind the facade. The ceiling is opened, since each logger decides for
itself; if a backend is installed already nothing changes. -/
def install (socket : Socket) : Except Failure Unit × Socket :=
  if socket.isTaken then
    (.error (.configuration "facade".toList
      ("attempted to set a logger after the logging system was already initialized".toList)),
      socket)
  else (.ok (), ⟨true, .upTo .trace⟩)

end Facade

end Logbook
