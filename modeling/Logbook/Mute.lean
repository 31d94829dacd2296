import Logbook.Registry

/-!
# Logbook — muting

A mute hides the stacks of the loggers it was made for, and of those below them, until it is
dropped. Loggers that let debug events through keep their stacks, and loggers that hide them
already are left alone, so that dropping the mute shows the stacks of exactly those it muted.

* **`Mute.ofNames`** — mutes the named loggers and all below them.
* **`Mute.names`** — the loggers that are muted.
* **`Mute.drop`** — shows the stacks of the muted loggers again.
-/

namespace Logbook

/-- The loggers that are muted together, in the order in which they were muted. -/
structure Mute where
  muted : List Handle
  deriving DecidableEq, Repr

namespace Mute

/-- Whether a logger takes part in muting: it does not hide stacks yet, and debug events do not get
through. -/
def applies (identity : Identity) : Bool :=
  !identity.level.admits .debug && !identity.hidesStacks

/-- Mutes one logger, if it takes part. -/
def add (mute : Mute) (registry : Registry) (handle : Handle) : Mute × Registry :=
  if (registry.identity? handle).any applies then
    (⟨mute.muted ++ [handle]⟩, registry.setHidesStacks handle true)
  else (mute, registry)

/-- Mutes several loggers, one after the other. -/
def addAll (mute : Mute) (registry : Registry) (handles : List Handle) : Mute × Registry :=
  handles.foldl (fun state handle => state.1.add state.2 handle) (mute, registry)

/-- Mutes the logger of a name, which is made if it is new, and then the loggers below it. -/
def addTree (mute : Mute) (registry : Registry) (name : Text) : Reported (Mute × Registry) := do
  let (handle, registry) ← registry.obtain name
  let (mute, registry) := mute.add registry handle
  return mute.addAll registry (registry.descendants name)

/-- A mute over these names and all below them. -/
def ofNames (registry : Registry) (names : List Text) : Reported (Mute × Registry) :=
  names.foldlM (fun state name => state.1.addTree state.2 name) (⟨[]⟩, registry)

/-- The names of the muted loggers, ascending by code point. -/
def names (mute : Mute) (registry : Registry) : List Text :=
  ((mute.muted.filterMap registry.identity?).map (·.name)).mergeSort Text.precedes

/-- Shows the stacks of the muted loggers again. -/
def drop (mute : Mute) (registry : Registry) : Registry :=
  mute.muted.foldl (fun registry handle => registry.setHidesStacks handle false) registry

end Mute

end Logbook
