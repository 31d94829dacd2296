import Logbook.Backend

/-!
# Logbook — sessions

A backend together with the mutes that are live, each under a label. A label that is used again
stands for the new mute; the one it stood for before is dropped, but only after the new one was
made.

* **`Session.mute`**, **`Session.unmute`** — the life of a mute.
-/

namespace Logbook

/-- A backend with the live mutes. -/
structure Session (α : Type) where
  backend : Backend α
  mutes : List (Text × Mute)

namespace Session

variable {α : Type} [Appender α]

/-- A session without mutes. -/
def new (backend : Backend α) : Session α :=
  ⟨backend, []⟩

/-- Drops the mute with this label, and tells whether there was one. -/
def unmute (session : Session α) (label : Text) : Bool × Session α :=
  match session.mutes.lookup label with
  | none => (false, session)
  | some mute =>
    (true, ⟨session.backend.unmute mute, session.mutes.filter (·.1 != label)⟩)

/-- Mutes these names and all below them, under a label. -/
def mute (session : Session α) (label : Text) (names : List Text) :
    Reported (Mute × Session α) := do
  let (mute, backend) ← session.backend.mute names
  let (_, session) := { session with backend }.unmute label
  return (mute, { session with mutes := session.mutes ++ [(label, mute)] })

end Session

end Logbook
