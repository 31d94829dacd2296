import Logbook.Settings

/-!
# Logbook — the registry of loggers

A logger is resolved against the settings once, when its name is first asked for, and stays what it
became: later settings concern later names only. The registry keeps the loggers in the order of
their creation, and a logger is known by its place in that order.

* **`Registry.obtain`** — the logger of a name, made at the first request.
* **`Registry.find?`** — the logger of a name if there is one.
* **`Registry.descendants`**, **`Registry.visitDescendants`** — the loggers below a name.
-/

namespace Logbook

/-- A resolved logger. Its name and its level are for good; whether it hides stacks may change. -/
structure Identity where
  name : Text
  /-- The short form of the name. -/
  condensed : Text
  level : Level
  /-- Whether an error is written as its description only. -/
  hidesStacks : Bool
  deriving DecidableEq, Repr

namespace Identity

/-- A logger with this name, level and treatment of stacks. -/
def new (name : Text) (level : Level) (hidesStacks : Bool) : Identity :=
  ⟨name, Name.condense name, level, hidesStacks⟩

/-- What a name resolves to under the settings: its level first, then its treatment of stacks. -/
def resolve (settings : Settings) (name : Text) : Reported Identity := do
  let level ← settings.resolveLevel name
  return new name level (settings.resolveHidesStacks name)

/-- The logger in inspection text. -/
def inspect (identity : Identity) : Text :=
  Inspect.fields "LoggerIdentity"
    [("name", Inspect.quoted identity.name),
     ("condensed_name", Inspect.quoted identity.condensed),
     ("level", identity.level.inspect),
     ("hide_stacks", Inspect.truth identity.hidesStacks)]

end Identity

/-- The place of a logger in the order of creation. -/
abbrev Handle := Nat

/-- The settings in force and the loggers made so far, in the order of their creation. -/
structure Registry where
  settings : Settings
  loggers : List Identity

namespace Registry

/-- A registry without loggers. -/
def new (settings : Settings) : Registry :=
  ⟨settings, []⟩

/-- Puts other settings in force, for the loggers made from now on. -/
def replaceSettings (registry : Registry) (settings : Settings) : Registry :=
  { registry with settings }

/-- The number of loggers. -/
def size (registry : Registry) : Nat :=
  registry.loggers.length

/-- The logger at a place. -/
def identity? (registry : Registry) (handle : Handle) : Option Identity :=
  registry.loggers[handle]?

/-- The place of the logger with this name. -/
def find? (registry : Registry) (name : Text) : Option Handle :=
  registry.loggers.findIdx? (·.name == name)

/-- The logger with this name, which is resolved and added if it is new. -/
def obtain (registry : Registry) (name : Text) : Reported (Handle × Registry) :=
  match registry.find? name with
  | some handle => pure (handle, registry)
  | none => do
    let identity ← Identity.resolve registry.settings name
    return (registry.size, { registry with loggers := registry.loggers ++ [identity] })

/-- Makes a logger hide or show stacks. -/
def setHidesStacks (registry : Registry) (handle : Handle) (hides : Bool) : Registry :=
  { registry with
    loggers := registry.loggers.modify handle fun identity =>
      { identity with hidesStacks := hides } }

/-- The loggers below a name. The order in which they are visited is not promised to a visitor; here
it is the order of their creation. -/
def descendants (registry : Registry) (parent : Text) : List Handle :=
  (List.range registry.size).filter fun handle =>
    (registry.identity? handle).any fun identity => Name.isBelow parent identity.name

/-- Visits the loggers that are below a name when the visit begins. The visitor may change the
registry, and so ask for further loggers, which are not visited. -/
def visitDescendants (registry : Registry) (parent : Text)
    (visitor : Handle → Registry → Reported Registry) : Reported Registry :=
  (registry.descendants parent).foldlM (fun registry handle => visitor handle registry) registry

/-- The names of the loggers, ascending by code point. -/
def names (registry : Registry) : List Text :=
  (registry.loggers.map (·.name)).mergeSort Text.precedes

end Registry

end Logbook
