import Logbook.Destination
import Logbook.Session

/-!
# Logbook — calls on an error stream

The notices of a call go to the error stream of the process while the call is under way, and the
first one that is refused breaks it off. What the call has done by then stays done: the loggers that
it asked for are there if their warnings are out, a mute that is not finished is dropped, and a
record is handed over before there can be a complaint about it.

* **`Attempt`** — how something went that changes a state and leaves notices;
  `Attempt.ofReported` is one step of it.
* **`Registry.attemptObtainAll`**, **`Registry.attemptVisit`**, **`Session.attemptMute`** — the
  calls of several steps.
-/

namespace Logbook

/-- How something went on an error stream: whether it broke off, and what it left. -/
structure Attempt (δ σ : Type) where
  breakdown? : Option Breakdown
  state : σ
  stream : δ

namespace Attempt

variable {δ σ τ ι : Type}

/-- Goes on from what an attempt left, unless it broke off. -/
def andThen (attempt : Attempt δ σ) (f : σ → δ → Attempt δ σ) : Attempt δ σ :=
  match attempt.breakdown? with
  | none => f attempt.state attempt.stream
  | some _ => attempt

/-- One step for each item, until one breaks off. -/
def all (step : σ → δ → ι → Attempt δ σ) (state : σ) (stream : δ) : List ι → Attempt δ σ
  | [] => ⟨none, state, stream⟩
  | item :: rest => (step state stream item).andThen fun state stream => all step state stream rest

/-- What an attempt comes to in the end, by whether it was finished or is given up. -/
def close (attempt : Attempt δ σ) (finish giveUp : σ → τ) : Attempt δ τ :=
  match attempt.breakdown? with
  | none => ⟨none, finish attempt.state, attempt.stream⟩
  | some breakdown => ⟨some breakdown, giveUp attempt.state, attempt.stream⟩

/-- Leaves the notices of a step. If one of them is refused the step breaks off, and `left` stays. -/
def ofReported [Destination δ] (stream : δ) (step : Reported σ) (left : σ) : Attempt δ σ :=
  match Destination.post stream step.notices with
  | (none, stream) => ⟨none, step.value, stream⟩
  | (some breakdown, stream) => ⟨some breakdown, left, stream⟩

end Attempt

variable {α δ : Type} [Destination δ]

/-- Asks for the loggers of several names. A new logger is there once its warnings are out. -/
def Registry.attemptObtainAll (registry : Registry) (stream : δ) (names : List Text) :
    Attempt δ Registry :=
  let obtain := fun (registry : Registry) (stream : δ) (name : Text) =>
    Attempt.ofReported stream ((·.2) <$> registry.obtain name) registry
  Attempt.all obtain registry stream names

/-- Visits the loggers below a name. The visitor asks for further names at each. -/
def Registry.attemptVisit (registry : Registry) (stream : δ) (parent : Text)
    (asks : Registry → Handle → List Text) : Attempt δ Registry :=
  let visit := fun (registry : Registry) (stream : δ) (handle : Handle) =>
    registry.attemptObtainAll stream (asks registry handle)
  Attempt.all visit registry stream (registry.descendants parent)

/-- Mutes names and all below them, as far as it gets. -/
def Mute.attemptNames (registry : Registry) (stream : δ) (names : List Text) :
    Attempt δ (Mute × Registry) :=
  let addTree := fun (state : Mute × Registry) (stream : δ) (name : Text) =>
    Attempt.ofReported stream (state.1.addTree state.2 name) state
  Attempt.all addTree (⟨[]⟩, registry) stream names

/-- The session with a finished mute under a label. -/
def Session.hold (session : Session α) (label : Text) (made : Mute × Registry) : Session α :=
  let backend := { session.backend with registry := made.2 }
  let (_, session) := { session with backend }.unmute label
  { session with mutes := session.mutes ++ [(label, made.1)] }

/-- Mutes names and all below them, under a label. A mute that is given up is dropped. -/
def Session.attemptMute (session : Session α) (stream : δ) (label : Text) (names : List Text) :
    Attempt δ (Session α) :=
  (Mute.attemptNames session.backend.registry stream names).close (session.hold label)
    fun made =>
      { session with backend := { session.backend with registry := made.1.drop made.2 } }

end Logbook
