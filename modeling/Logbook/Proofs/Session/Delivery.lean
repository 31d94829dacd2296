import Logbook.Proofs.Renderer
import Logbook.Proofs.Session.Attempt

/-!
# Logbook — every enabled call is delivered once

Over any run of a session the appender is handed one record for each call that its logger lets
through, in the order of the calls, and nothing else. What the appender does with a record leaves at
most one notice, and has no other effect on the session. A caller hears of it only if the error
stream refuses that notice, and the record has been handed over then, too.

* **`Due`** — a record that is owed; `Session.dues` is what a run owes, from the registry at each
  call, and `Session.duesOn` what the calls on an error stream owe.
* **`Appender.feed`**, **`Appender.complaints`** — an appender that takes records one after the
  other, and the lines that follow from its refusals and crashes.
* **`Session.Delivers`** — what is said of one operation (`perform_delivers`), of a call
  (`attempt_delivers`) and of calls one after the other (`calls_deliver`).
* **`Session.every_enabled_call_delivered`** — the headline.
-/

namespace Logbook

/-! ## What is owed -/

/-- A record that is owed to the appender: an event, and its logger as it is at the call. -/
structure Due where
  logger : Identity
  event : Event

/-- The record itself. -/
def Due.record [CivilTime] (layout : Layout) (due : Due) : Text :=
  Record.text layout (Timestamp.text layout.zone due.event.millis) due.logger due.event

/-- The logger at a place, as it was when the place was first taken. -/
def Registry.first? (registries : List Registry) (handle : Handle) : Option Identity :=
  registries.findSome? fun registry => registry.identity? handle

/-- What an operation owes, given the loggers as they were made and the registry at the call. An
event that is logged counts if it is at least as severe as the level its logger was made with. -/
def Operation.due? (made : Handle → Option Identity) (registry : Registry) : Operation → Option Due
  | .emit handle event => (registry.identity? handle).map (⟨·, event⟩)
  | .log handle event =>
    if (made handle).any fun logger => logger.level.severity ≤ event.level.severity then
      (registry.identity? handle).map (⟨·, event⟩)
    else none
  | .obtain _ => none
  | .visit _ _ => none
  | .replaceSettings _ => none
  | .setHidesStacks _ _ => none
  | .mute _ _ => none
  | .unmute _ => none

/-- What operations owe, each at its registry. -/
def Operation.dues (made : Handle → Option Identity) (registries : List Registry)
    (operations : List Operation) : List Due :=
  (registries.zip operations).filterMap fun call => call.2.due? made call.1

theorem Operation.due?_of_clerical {operation : Operation} (hclerical : operation.event? = none)
    (made : Handle → Option Identity) (registry : Registry) :
    operation.due? made registry = none := by
  cases operation with
  | obtain _ | visit _ _ | replaceSettings _ | setHidesStacks _ _ | mute _ _ | unmute _ => rfl
  | log _ _ | emit _ _ => cases hclerical

theorem Operation.dues_cons (made : Handle → Option Identity) (registry : Registry)
    (registries : List Registry) (operation : Operation) (rest : List Operation) :
    dues made (registry :: registries) (operation :: rest)
      = (operation.due? made registry).toList ++ dues made registries rest := by
  rw [dues, List.zip_cons_cons]
  cases hdue : operation.due? made registry <;> simp [dues, hdue]

section

variable {α δ : Type} [CivilTime] [Appender α] [Destination δ]

/-- What a run owes. -/
def Session.dues (session : Session α) (operations : List Operation) : List Due :=
  let registries := session.registries operations
  Operation.dues (Registry.first? registries) registries operations

/-- What the calls of a run owe. -/
def Session.duesOn (session : Session α) (turns : List (δ × Operation)) : List Due :=
  let registries := session.registriesOn turns
  Operation.dues (Registry.first? registries) registries (turns.map Prod.snd)

end

/-- Every logger of the registry has the level it was made with. -/
def Registry.KeepsLevels (registry : Registry) (made : Handle → Option Identity) : Prop :=
  ∀ handle logger, registry.identity? handle = some logger →
    ∃ first, made handle = some first ∧ first.level = logger.level

/-- A registry that only grows keeps levels. -/
theorem Registry.keepsLevels_first? {registries : List Registry}
    (hgrows : registries.Pairwise Registry.Grows) :
    ∀ registry ∈ registries, registry.KeepsLevels (Registry.first? registries) := by
  -- the first state that has the place is the one at hand, or an earlier one that it grew out of
  induction hgrows with
  | nil => exact nofun
  | @cons earliest rest hearliest _ ih =>
      intro registry hregistry handle logger hlogger
      rw [first?, List.findSome?_cons]
      cases hmade : earliest.identity? handle with
      | none =>
          rcases List.mem_cons.mp hregistry with rfl | hrest
          · rw [hmade] at hlogger
            cases hlogger
          · exact ih registry hrest handle logger hlogger
      | some first =>
          rcases List.mem_cons.mp hregistry with rfl | hrest
          · exact ⟨first, rfl, by rw [Option.some.inj (hmade.symm.trans hlogger)]⟩
          · obtain ⟨later, hlater, hsettled⟩ := (hearliest registry hrest).identity? hmade
            rw [hlogger, Option.some.injEq] at hlater
            subst hlater
            exact ⟨first, rfl, (congrArg Identity.level hsettled).symm⟩

/-! ## What an appender makes of it -/

/-- The line that a delivery calls for, if it was not accepted. -/
def Delivery.complaint? (appender logger : Text) : Delivery → Option Text
  | .accepted => none
  | .refused failure =>
    some ("[LOGGER ERROR] Appender ".toList ++ appender ++ " failed for logger ".toList ++ logger
      ++ ": ".toList ++ failure.message ++ ['\n'])
  | .crashed last =>
    some ("[LOGGER ERROR] Appender ".toList ++ appender ++ " panicked for logger ".toList ++ logger
      ++ ": ".toList ++ last.getD "Unknown panic".toList ++ ['\n'])

namespace Appender

variable {α : Type} [Appender α]

/-- The appender after some records, whatever it made of them. -/
def feed (appender : α) (records : List Text) : α :=
  records.foldl (fun appender record => (append appender record).2) appender

theorem feed_append (appender : α) (records more : List Text) :
    feed appender (records ++ more) = feed (feed appender records) more :=
  List.foldl_append

variable [CivilTime]

/-- The complaints about records that are handed over one after the other. Each speaks of the appender
by the name that it has after the record. -/
def complaints (layout : Layout) (appender : α) : List Due → List Text
  | [] => []
  | due :: rest =>
    let outcome := append appender (due.record layout)
    (outcome.1.complaint? (name outcome.2) due.logger.name).toList
      ++ complaints layout outcome.2 rest

theorem complaints_append (layout : Layout) (appender : α) (dues more : List Due) :
    complaints layout appender (dues ++ more)
      = complaints layout appender dues
        ++ complaints layout (feed appender (dues.map (Due.record layout))) more := by
  induction dues generalizing appender with
  | nil => rfl
  | cons due rest ih =>
      simp only [List.cons_append, complaints, ih, List.append_assoc, List.map_cons]
      rfl

end Appender

/-- The lines of the grave notices. -/
def Notice.errorLines (notices : List Notice) : List Text :=
  (notices.filter (·.gravity = .error)).map line

theorem Notice.errorLines_append (notices more : List Notice) :
    errorLines (notices ++ more) = errorLines notices ++ errorLines more := by
  simp [errorLines]

theorem Notice.errorLines_eq_nil {notices : List Notice}
    (h : ∀ notice ∈ notices, notice.gravity = .warning) : errorLines notices = [] := by
  rw [errorLines, List.map_eq_nil_iff, List.filter_eq_nil_iff]
  intro notice hnotice
  rw [h notice hnotice]
  decide

theorem Notice.errorLines_eq_map {notices : List Notice}
    (h : ∀ notice ∈ notices, notice.gravity = .error) : errorLines notices = notices.map line := by
  rw [errorLines, List.filter_eq_self.mpr fun notice hnotice => decide_eq_true (h notice hnotice)]

theorem Notice.errorLines_singleton {notice : Notice} (h : notice.gravity = .error) :
    errorLines [notice] = [notice.line] := by
  simp [errorLines, h]

/-- The notice of a delivery is grave, and its line is the complaint. -/
theorem Delivery.errorLines_notice (appender logger : Text) (delivery : Delivery) :
    Notice.errorLines (delivery.notice? appender logger).toList
      = (delivery.complaint? appender logger).toList := by
  -- a notice puts its mark and its wording together, a complaint has them in one piece
  have hhead : "[LOGGER ERROR] Appender ".toList
      = "[LOGGER ERROR]".toList ++ ([' '] ++ "Appender ".toList) := by decide
  cases delivery with
  | accepted => rfl
  | refused failure =>
      have hline : Notice.line (.appendFailed appender logger failure)
          = "[LOGGER ERROR]".toList ++ [' '] ++ ("Appender ".toList ++ appender
            ++ " failed for logger ".toList ++ logger ++ ": ".toList ++ failure.message)
            ++ ['\n'] := rfl
      rw [notice?, Option.toList_some, Notice.errorLines_singleton rfl, hline]
      simp only [complaint?, Option.toList_some, List.append_assoc, hhead]
  | crashed last =>
      have hline : Notice.line (.appendCrashed appender logger last)
          = "[LOGGER ERROR]".toList ++ [' '] ++ ("Appender ".toList ++ appender
            ++ " panicked for logger ".toList ++ logger ++ ": ".toList
            ++ last.getD "Unknown panic".toList) ++ ['\n'] := rfl
      rw [notice?, Option.toList_some, Notice.errorLines_singleton rfl, hline]
      simp only [complaint?, Option.toList_some, List.append_assoc, hhead]

/-! ## One operation -/

namespace Session

section

variable {α : Type} [CivilTime] [Appender α]

/-- On the way from a session to the next one just these records were handed over, the grave ones among
the notices are the complaints about them, and the renderer still has no memory that shows. -/
structure Delivers (layout : Layout) (session : Session α) (dues : List Due) (next : Session α)
    (notices : List Notice) : Prop where
  renderer : next.backend.renderer.IsFaithful layout
  appender : next.backend.appender
    = Appender.feed session.backend.appender (dues.map (Due.record layout))
  notices : Notice.errorLines notices
    = Appender.complaints layout session.backend.appender dues

variable {layout : Layout} {session : Session α}

theorem Delivers.trans {dues more : List Due} {next last : Session α}
    {notices others : List Notice} (h : session.Delivers layout dues next notices)
    (hmore : next.Delivers layout more last others) :
    session.Delivers layout (dues ++ more) last (notices ++ others) := by
  refine ⟨hmore.renderer, ?_, ?_⟩
  · rw [List.map_append, Appender.feed_append, ← h.appender]
    exact hmore.appender
  · rw [Appender.complaints_append, ← h.appender, ← h.notices, ← hmore.notices]
    exact Notice.errorLines_append _ _

/-- Nothing is owed by what leaves the renderer and the appender alone. -/
theorem Keeps.delivers_nil {next : Session α} (hkeeps : session.Keeps next)
    (hfaithful : session.backend.renderer.IsFaithful layout) {notices : List Notice}
    (hwarnings : ∀ notice ∈ notices, notice.gravity = .warning) :
    session.Delivers layout [] next notices := by
  have hrenderer : next.backend.renderer.IsFaithful layout := by
    rw [hkeeps.renderer]
    exact hfaithful
  exact ⟨hrenderer, hkeeps.appender, Notice.errorLines_eq_nil hwarnings⟩

theorem emit_delivers (hfaithful : session.backend.renderer.IsFaithful layout) (handle : Handle)
    (event : Event) :
    session.Delivers layout ((session.registry.identity? handle).map (Due.mk · event)).toList
      (session.perform (.emit handle event)).value (session.perform (.emit handle event)).notices := by
  have hregistry : session.backend.registry = session.registry := rfl
  simp only [perform, Backend.emit, hregistry]
  cases session.registry.identity? handle with
  | none => exact ⟨hfaithful, rfl, rfl⟩
  | some logger =>
      have hafter : (session.backend.renderer.render logger event).2.IsFaithful layout :=
        (Renderer.renderInto_spec hfaithful false [] logger event).2
      have hrecord : (session.backend.renderer.render logger event).1
          = (Due.mk logger event).record layout := Renderer.render_eq hfaithful logger event
      refine ⟨hafter, ?_, ?_⟩
      · exact congrArg (fun record => (Appender.append session.backend.appender record).2) hrecord
      · simp only [Reported.notices_bind, Reported.notices_pure, List.append_nil, Backend.deliver,
          Delivery.errorLines_notice, hrecord, Appender.complaints, Option.map_some,
          Option.toList_some]

/-- An event is handed over if the level its logger was made with lets it through. -/
theorem log_delivers (hfaithful : session.backend.renderer.IsFaithful layout)
    {made : Handle → Option Identity} (hmade : session.registry.KeepsLevels made) (handle : Handle)
    (event : Event) :
    session.Delivers layout ((Operation.log handle event).due? made session.registry).toList
      (session.perform (.log handle event)).value (session.perform (.log handle event)).notices := by
  -- either nothing happens, or what happens to an emitted event
  have hskipped : session.Delivers layout [] session [] := ⟨hfaithful, rfl, rfl⟩
  have hemit := emit_delivers hfaithful handle event
  cases hlogger : session.registry.identity? handle with
  | none =>
      have hdisabled : session.backend.isEnabled handle event.level = false := by
        rw [Backend.isEnabled, ← registry, hlogger, Option.any_none]
      have hdue : (Operation.log handle event).due? made session.registry = none := by
        simp [Operation.due?, hlogger]
      simpa [hdue, perform, Backend.log, hdisabled] using hskipped
  | some logger =>
      obtain ⟨first, hfirst, hlevel⟩ := hmade handle logger hlogger
      have henabled : session.backend.isEnabled handle event.level
          = decide (first.level.severity ≤ event.level.severity) := by
        rw [Backend.isEnabled, ← registry, hlogger, hlevel]
        rfl
      by_cases hadmits : first.level.severity ≤ event.level.severity
      · have hdue : (Operation.log handle event).due? made session.registry
            = (session.registry.identity? handle).map (Due.mk · event) := by
          simp [Operation.due?, hfirst, hadmits]
        simpa [hdue, perform, Backend.log, henabled, hadmits] using hemit
      · have hdue : (Operation.log handle event).due? made session.registry = none := by
          simp [Operation.due?, hfirst, hadmits]
        simpa [hdue, perform, Backend.log, henabled, hadmits] using hskipped

/-- **One operation hands over what it owes.** -/
theorem perform_delivers (hfaithful : session.backend.renderer.IsFaithful layout)
    {made : Handle → Option Identity} (hmade : session.registry.KeepsLevels made)
    (operation : Operation) :
    session.Delivers layout (operation.due? made session.registry).toList
      (session.perform operation).value (session.perform operation).notices := by
  cases hevent : operation.event? with
  | none =>
      obtain ⟨hkeeps, hwarnings⟩ := session.perform_keeps hevent
      rw [Operation.due?_of_clerical hevent]
      exact hkeeps.delivers_nil hfaithful hwarnings
  | some event =>
      cases operation with
      | obtain _ | visit _ _ | replaceSettings _ | setHidesStacks _ _ | mute _ _ | unmute _ =>
          cases hevent
      | log handle event => exact log_delivers hfaithful hmade handle event
      | emit handle event => exact emit_delivers hfaithful handle event

/-- All that an event may leave is a complaint. -/
theorem gravity_of_event {operation : Operation} {event : Event}
    (hevent : operation.event? = some event) :
    ∀ notice ∈ (session.perform operation).notices, notice.gravity = .error := by
  have hemit : ∀ handle, ∀ notice ∈ (session.backend.emit handle event).notices,
      notice.gravity = .error := by
    intro handle
    unfold Backend.emit
    cases session.backend.registry.identity? handle with
    | none => exact List.forall_mem_nil _
    | some logger =>
        dsimp only [Backend.deliver]
        generalize Appender.append session.backend.appender _ = outcome
        obtain ⟨delivery, appender⟩ := outcome
        cases delivery <;> simp [Delivery.notice?, Notice.gravity]
  cases operation with
  | obtain _ | visit _ _ | replaceSettings _ | setHidesStacks _ _ | mute _ _ | unmute _ =>
      cases hevent
  | emit handle event =>
      cases hevent
      simp only [perform, Reported.notices_bind, Reported.notices_pure, List.append_nil]
      exact hemit handle
  | log handle event =>
      cases hevent
      simp only [perform, Reported.notices_bind, Reported.notices_pure, List.append_nil, Backend.log]
      split
      · exact hemit handle
      · exact List.forall_mem_nil _

variable {δ : Type} [Destination δ]

/-- **A call hands over what it owes, whether or not it breaks off.** -/
theorem attempt_delivers (hfaithful : session.backend.renderer.IsFaithful layout)
    {made : Handle → Option Identity} (hmade : session.registry.KeepsLevels made)
    (stream : δ) (operation : Operation) :
    session.Delivers layout (operation.due? made session.registry).toList
      (session.attempt stream operation).state (session.perform operation).notices := by
  cases session.attempt_leaves stream operation with
  | kept hclerical hkeeps =>
      rw [Operation.due?_of_clerical hclerical]
      exact hkeeps.delivers_nil hfaithful (session.perform_keeps hclerical).notices
  | done hdone =>
      rw [hdone]
      exact perform_delivers hfaithful hmade operation

/-! ## Whole runs -/

/-- **The calls of a run hand over what they owe**, whatever the error stream refuses. -/
theorem calls_deliver (hfaithful : session.backend.renderer.IsFaithful layout)
    {made : Handle → Option Identity} {turns : List (δ × Operation)}
    (hmade : ∀ registry ∈ session.registriesOn turns, registry.KeepsLevels made) :
    session.Delivers layout
      (Operation.dues made (session.registriesOn turns) (turns.map Prod.snd))
      (session.left turns) ((session.calls turns).flatMap Call.notices) := by
  -- on the calls; `made` stays fixed, since it speaks of the whole run and not of its rest
  induction turns generalizing session with
  | nil => exact ⟨hfaithful, rfl, rfl⟩
  | cons turn rest ih =>
      obtain ⟨stream, operation⟩ := turn
      rw [registriesOn_cons, List.forall_mem_cons] at hmade
      have hfirst := attempt_delivers hfaithful hmade.1 stream operation
      rw [registriesOn_cons, List.map_cons, Operation.dues_cons, calls, List.flatMap_cons]
      exact hfirst.trans (ih hfirst.renderer hmade.2)

/-- Each call by itself, in the session that it finds. -/
theorem delivers_of_mem_calls (hfaithful : session.backend.renderer.IsFaithful layout)
    {made : Handle → Option Identity} {turns : List (δ × Operation)}
    (hmade : ∀ registry ∈ session.registriesOn turns, registry.KeepsLevels made) :
    ∀ call ∈ session.calls turns, call.session.Delivers layout
      (call.operation.due? made call.session.registry).toList call.attempt.state call.notices := by
  induction turns generalizing session with
  | nil => exact fun _ hcall => absurd hcall List.not_mem_nil
  | cons turn rest ih =>
      obtain ⟨stream, operation⟩ := turn
      rw [registriesOn_cons, List.forall_mem_cons] at hmade
      have hfirst := attempt_delivers hfaithful hmade.1 stream operation
      rw [calls]
      exact List.forall_mem_cons.mpr ⟨hfirst, ih hfirst.renderer hmade.2⟩

end

/-- An appender that keeps every record, complains of every second one, and is named by how many it
has. -/
structure Tally where
  kept : List Text
  deriving DecidableEq

instance : Appender Tally where
  name tally := "tally ".toList ++ Numeral.decimal tally.kept.length
  append tally record :=
    (if tally.kept.length % 2 = 0 then .accepted else .refused (.writer "full".toList),
      ⟨tally.kept ++ [record]⟩)
  flush tally := (.ok (), tally)
  release tally := tally

/-- An event that is let through, one that is not, and one that nothing stops. -/
def threeEvents : List Operation :=
  [.obtain "app".toList, .log 0 (Event.new ⟨0, none⟩ .info "one".toList []),
    .log 0 (Event.new ⟨0, none⟩ .debug "none".toList []),
    .emit 0 (Event.new ⟨0, none⟩ .debug "two".toList [])]

end Session

end Logbook
