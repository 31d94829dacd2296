import Logbook.Proofs.Registry.Growth
import Logbook.Session
import Mathlib.Data.List.Infix

/-!
# Logbook — runs of a session

What a program does with the library is a list of operations on one session. Each operation gives
the next session and the notices that it leaves, which are thought to be taken here. Between two
operations only the registry, the live mutes, the renderer and the appender may change, and what
becomes of the first two does not depend on the other two.

* **`Operation`**, **`Session.perform`**, **`Session.run`** — the operations, one step and a run.
* **`Session.registries`** — the registry at every point of a run.
* **`Session.perform_keeps`** — what operations without an event leave alone; `grows_perform` says of
  every operation that the registry only grows.
* **`Session.Alike`** — two sessions that differ in their appenders only; `Alike.perform` and
  `Alike.registries_eq` say that they stay alike.
-/

namespace Logbook

/-- What a program may ask of a session. -/
inductive Operation where
  /-- Asks for the logger of a name. -/
  | obtain (name : Text)
  /-- Visits the loggers below a name; the visitor may ask for further names. -/
  | visit (parent : Text) (asks : Registry → Handle → List Text)
  /-- Puts other settings in force. -/
  | replaceSettings (settings : Settings)
  /-- Makes a logger hide or show stacks. -/
  | setHidesStacks (handle : Handle) (hides : Bool)
  /-- Mutes names and all below them, under a label. -/
  | mute (label : Text) (names : List Text)
  /-- Drops the mute of a label. -/
  | unmute (label : Text)
  /-- Logs an event if its level is let through. -/
  | log (handle : Handle) (event : Event)
  /-- Emits an event, whatever its level. -/
  | emit (handle : Handle) (event : Event)

/-- The event that an operation may hand over. -/
def Operation.event? : Operation → Option Event
  | .obtain _ => none
  | .visit _ _ => none
  | .replaceSettings _ => none
  | .setHidesStacks _ _ => none
  | .mute _ _ => none
  | .unmute _ => none
  | .log _ event => some event
  | .emit _ event => some event

/-- Asks for the loggers of several names. -/
def Registry.obtainAll (registry : Registry) (names : List Text) : Reported Registry :=
  names.foldlM (fun registry name => (·.2) <$> registry.obtain name) registry

namespace Session

variable {α : Type}

/-- The loggers and the settings of the session. -/
def registry (session : Session α) : Registry :=
  session.backend.registry

/-- The session with its registry in another state. -/
def withRegistry (session : Session α) (registry : Registry) : Session α :=
  { session with backend := { session.backend with registry } }

variable [CivilTime] [Appender α]

/-- The session after an operation. -/
def perform (session : Session α) : Operation → Reported (Session α)
  | .obtain name => do
    let (_, backend) ← session.backend.logger name
    return { session with backend }
  | .visit parent asks => do
    let registry ← session.registry.visitDescendants parent fun handle registry =>
      registry.obtainAll (asks registry handle)
    return session.withRegistry registry
  | .replaceSettings settings =>
    return { session with backend := session.backend.replaceSettings settings }
  | .setHidesStacks handle hides =>
    return { session with backend := session.backend.setHidesStacks handle hides }
  | .mute label names => do
    let (_, session) ← session.mute label names
    return session
  | .unmute label => return (session.unmute label).2
  | .log handle event => do
    let backend ← session.backend.log handle event
    return { session with backend }
  | .emit handle event => do
    let backend ← session.backend.emit handle event
    return { session with backend }

/-- The session after some operations. -/
def run (session : Session α) (operations : List Operation) : Reported (Session α) :=
  operations.foldlM perform session

theorem run_nil (session : Session α) : session.run [] = pure session := rfl

theorem run_cons (session : Session α) (operation : Operation) (rest : List Operation) :
    session.run (operation :: rest) = session.perform operation >>= fun next => next.run rest :=
  List.foldlM_cons

/-- The registry at every point of a run: before the first operation and after each. -/
def registries (session : Session α) (operations : List Operation) : List Registry :=
  operations.inits.map fun before => (session.run before).value.registry

theorem registries_nil (session : Session α) : session.registries [] = [session.registry] := rfl

theorem registries_cons (session : Session α) (operation : Operation) (rest : List Operation) :
    session.registries (operation :: rest)
      = session.registry :: (session.perform operation).value.registries rest := by
  simp [registries, run_nil, run_cons, Function.comp_def]

end Session

/-! ## Clerical operations

All operations but `log` and `emit` are clerical: they touch neither the renderer nor the appender. -/

theorem Registry.meets_obtainAll (registry : Registry) (names : List Text) :
    (registry.obtainAll names).Meets registry.Grows := by
  refine Reported.meets_foldlM (fun now name hnow => ?_) names (Registry.Grows.refl registry)
  have hobtain : ((·.2) <$> now.obtain name).Meets now.Grows := by
    rw [map_eq_pure_bind]
    exact (now.meets_obtain name).bind fun _ h => Reported.meets_pure h
  exact ⟨hnow.trans hobtain.value, hobtain.notices⟩

namespace Session

variable {α : Type}

/-- The later session has a grown registry, and the same renderer and appender. -/
structure Keeps (session next : Session α) : Prop where
  grows : session.registry.Grows next.registry
  renderer : next.backend.renderer = session.backend.renderer
  appender : next.backend.appender = session.backend.appender

theorem keeps_withRegistry {session : Session α} {registry : Registry}
    (h : session.registry.Grows registry) : session.Keeps (session.withRegistry registry) :=
  ⟨h, rfl, rfl⟩

theorem Keeps.unmute {session next : Session α} (h : session.Keeps next) (label : Text) :
    session.Keeps (next.unmute label).2 := by
  unfold Session.unmute
  cases next.mutes.lookup label with
  | none => exact h
  | some mute => exact ⟨h.grows.trans (mute.grows_drop next.registry), h.renderer, h.appender⟩

theorem meets_mute (session : Session α) (label : Text) (names : List Text) :
    (session.mute label names).Meets fun made => session.Keeps made.2 := by
  have hmade : (session.backend.mute names).Meets fun made =>
      session.Keeps { session with backend := made.2 } := by
    exact (Mute.meets_ofNames session.registry names).bind fun made hgrows =>
      Reported.meets_pure ⟨hgrows, rfl, rfl⟩
  exact hmade.bind fun made hkeeps => Reported.meets_pure
    ⟨(hkeeps.unmute label).grows, (hkeeps.unmute label).renderer, (hkeeps.unmute label).appender⟩

variable [CivilTime] [Appender α]

/-- **A clerical operation** leaves warnings at most. -/
theorem perform_keeps (session : Session α) {operation : Operation}
    (hclerical : operation.event? = none) : (session.perform operation).Meets session.Keeps := by
  have hsame : session.Keeps session := ⟨Registry.Grows.refl _, rfl, rfl⟩
  cases operation with
  | obtain name =>
      have hlogger : (session.backend.logger name).Meets fun obtained =>
          session.Keeps { session with backend := obtained.2 } :=
        (session.registry.meets_obtain name).bind fun obtained hgrows =>
          Reported.meets_pure ⟨hgrows, rfl, rfl⟩
      exact hlogger.bind fun obtained hkeeps => Reported.meets_pure hkeeps
  | visit parent asks =>
      refine (Registry.meets_visitDescendants (fun handle registry => ?_) session.registry
        parent).bind fun registry hgrows => Reported.meets_pure (keeps_withRegistry hgrows)
      exact registry.meets_obtainAll (asks registry handle)
  | replaceSettings settings =>
      exact Reported.meets_pure ⟨Registry.grows_replaceSettings _ settings, rfl, rfl⟩
  | setHidesStacks handle hides =>
      exact Reported.meets_pure ⟨Registry.grows_setHidesStacks _ handle hides, rfl, rfl⟩
  | mute label names =>
      exact (session.meets_mute label names).bind fun made hkeeps => Reported.meets_pure hkeeps
  | unmute label => exact Reported.meets_pure (hsame.unmute label)
  | log handle event => cases hclerical
  | emit handle event => cases hclerical

end Session

/-! ## The registry -/

theorem Backend.registry_emit {α : Type} [CivilTime] [Appender α] (backend : Backend α)
    (handle : Handle) (event : Event) :
    (backend.emit handle event).value.registry = backend.registry := by
  unfold Backend.emit
  cases backend.registry.identity? handle <;> rfl

theorem Backend.registry_log {α : Type} [CivilTime] [Appender α] (backend : Backend α)
    (handle : Handle) (event : Event) :
    (backend.log handle event).value.registry = backend.registry := by
  unfold Backend.log
  split
  · exact backend.registry_emit handle event
  · rfl

namespace Session

variable {α : Type} [CivilTime] [Appender α]

/-- **The registry only grows.** -/
theorem grows_perform (session : Session α) (operation : Operation) :
    session.registry.Grows (session.perform operation).value.registry := by
  cases hevent : operation.event? with
  | none => exact (session.perform_keeps hevent).value.grows
  | some event =>
      cases operation with
      | obtain _ | visit _ _ | replaceSettings _ | setHidesStacks _ _ | mute _ _ | unmute _ =>
          cases hevent
      | log handle event =>
          have hsame : (session.perform (.log handle event)).value.registry = session.registry :=
            session.backend.registry_log handle event
          rw [hsame]
          exact Registry.Grows.refl session.registry
      | emit handle event =>
          have hsame : (session.perform (.emit handle event)).value.registry = session.registry :=
            session.backend.registry_emit handle event
          rw [hsame]
          exact Registry.Grows.refl session.registry

end Session

/-! ## Sessions that differ in the appender only -/

namespace Session

variable {α β : Type}

/-- The sessions have the same registry, the same live mutes and the same renderer. -/
structure Alike (one : Session α) (other : Session β) : Prop where
  registry : one.backend.registry = other.backend.registry
  mutes : one.mutes = other.mutes
  renderer : one.backend.renderer = other.backend.renderer

variable {one : Session α} {other : Session β}

theorem Alike.unmute (h : one.Alike other) (label : Text) :
    (one.unmute label).2.Alike (other.unmute label).2 := by
  unfold Session.unmute
  rw [h.mutes]
  cases other.mutes.lookup label with
  | none => exact h
  | some mute => exact ⟨congrArg mute.drop h.registry, rfl, h.renderer⟩

variable [CivilTime] [Appender α] [Appender β]

theorem Alike.emit (h : one.Alike other) (handle : Handle) (event : Event) :
    (one.perform (.emit handle event)).value.Alike (other.perform (.emit handle event)).value := by
  obtain ⟨⟨registry, renderer, appender⟩, mutes⟩ := one
  obtain ⟨⟨_, _, appender'⟩, _⟩ := other
  obtain ⟨rfl, rfl, rfl⟩ := h
  simp only [Session.perform, Backend.emit, Reported.value_bind, Reported.value_pure]
  cases registry.identity? handle with
  | none => exact ⟨rfl, rfl, rfl⟩
  | some logger => exact ⟨rfl, rfl, rfl⟩

/-- **An operation keeps sessions alike**, whatever the appenders make of a record. -/
theorem Alike.perform (h : one.Alike other) (operation : Operation) :
    (one.perform operation).value.Alike (other.perform operation).value := by
  have hregistry : one.registry = other.registry := h.registry
  cases operation with
  | obtain name =>
      exact ⟨congrArg (fun registry => (registry.obtain name).value.2) hregistry, h.mutes,
        h.renderer⟩
  | visit parent asks =>
      refine ⟨?_, h.mutes, h.renderer⟩
      exact congrArg (fun registry => (registry.visitDescendants parent fun handle registry =>
        registry.obtainAll (asks registry handle)).value) hregistry
  | replaceSettings settings =>
      exact ⟨congrArg (fun registry => registry.replaceSettings settings) hregistry, h.mutes,
        h.renderer⟩
  | setHidesStacks handle hides =>
      exact ⟨congrArg (fun registry => registry.setHidesStacks handle hides) hregistry, h.mutes,
        h.renderer⟩
  | mute label names =>
      -- the new mute is made first, and only then an old one with this label is dropped
      have hmade : ({ one with backend := (one.backend.mute names).value.2 } : Session α).Alike
          ({ other with backend := (other.backend.mute names).value.2 } : Session β) :=
        ⟨congrArg (fun registry => (Mute.ofNames registry names).value.2) hregistry, h.mutes,
          h.renderer⟩
      have hdropped := hmade.unmute label
      have hmute : (one.backend.mute names).value.1 = (other.backend.mute names).value.1 :=
        congrArg (fun registry => (Mute.ofNames registry names).value.1) hregistry
      refine ⟨hdropped.registry, ?_, hdropped.renderer⟩
      exact congrArg₂ (fun mutes mute => mutes ++ [(label, mute)]) hdropped.mutes hmute
  | unmute label => exact h.unmute label
  | emit handle event => exact h.emit handle event
  | log handle event =>
      have henabled : one.backend.isEnabled handle event.level
          = other.backend.isEnabled handle event.level := by
        rw [Backend.isEnabled, h.registry, ← Backend.isEnabled]
      have hemit := h.emit handle event
      simp only [Session.perform, Backend.log, henabled]
      split
      · exact hemit
      · exact h

/-- **The appender does not matter for the registry**, at any point of a run. -/
theorem Alike.registries_eq (h : one.Alike other) (operations : List Operation) :
    one.registries operations = other.registries operations := by
  have hregistry : one.registry = other.registry := h.registry
  induction operations generalizing one other with
  | nil => rw [registries_nil, registries_nil, hregistry]
  | cons operation rest ih =>
      have hnext := h.perform operation
      rw [registries_cons, registries_cons, hregistry, ih hnext hnext.registry]

theorem Alike.run (h : one.Alike other) (operations : List Operation) :
    (one.run operations).value.Alike (other.run operations).value := by
  induction operations generalizing one other with
  | nil => exact h
  | cons operation rest ih => exact ih (h.perform operation)

end Session

end Logbook
