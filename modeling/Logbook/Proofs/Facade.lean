import Logbook.Appender.Memory
import Logbook.Facade
import Logbook.Proofs.Mute.Coverage
import Logbook.Proofs.Session.Delivery
import Logbook.Proofs.Template.Outline

/-!
# Logbook — the facade is the native path

What comes in through the facade goes out as if the logger of its path had been called: the answer to
whether a priority is let through and the record that is written have the same logger behind them, and
the text is no template any more, whatever it looks like.

* **`Facade.dotted_colons`** — a run of colons: a dot for each pair, and what is left over.
* **`Facade.dotted_append`** — a path may be cut wherever the cut parts no two colons.
* **`Facade.loggerName_seam`** — both together: what becomes of each maximal run, and of nothing else.
* **`Facade.log_eq`** — logging is the question, and then the emission or nothing.
* **`Facade.log_is_native`** — the headline.
-/

namespace Logbook

namespace Facade

/-! ## Logger names -/

theorem hasDoubleColon_iff {path : Text} : hasDoubleColon path = true ↔ [':', ':'] <:+: path := by
  fun_induction hasDoubleColon path with
  | case1 rest => simpa using (List.prefix_append [':', ':'] rest).isInfix
  | case2 c rest hother ih =>
      rw [ih, List.infix_cons_iff, or_iff_right]
      rintro ⟨behind, hbehind⟩
      obtain ⟨rfl, rfl⟩ := List.cons.inj hbehind
      exact hother behind rfl rfl
  | case3 => simp

theorem dotted_of_not_hasDoubleColon {path : Text} (h : hasDoubleColon path = false) :
    dotted path = path := by
  fun_induction dotted path with
  | case1 rest ih => simp [hasDoubleColon] at h
  | case2 c rest hother ih =>
      rw [hasDoubleColon] at h
      · rw [ih h]
      · exact hother
  | case3 => rfl

theorem loggerName_eq_dotted (path : Text) : loggerName path = dotted path := by
  unfold loggerName renamed?
  split
  · rfl
  · next h => exact (dotted_of_not_hasDoubleColon (Bool.eq_false_iff.mpr h)).symm

/-- A dotted text begins with a colon only where the text does. -/
theorem head?_of_head?_dotted {path : Text} (h : (dotted path).head? = some ':') :
    path.head? = some ':' := by
  fun_induction dotted path with
  | case1 rest ih => simp
  | case2 c rest hother ih => exact h
  | case3 => exact h

theorem hasDoubleColon_dotted (path : Text) : hasDoubleColon (dotted path) = false := by
  fun_induction dotted path with
  | case1 rest ih => simpa [hasDoubleColon] using ih
  | case2 c rest hother ih =>
      rw [hasDoubleColon]
      · exact ih
      · rintro behind rfl hbehind
        have hdotted : (dotted rest).head? = some ':' := by
          rw [hbehind]
          rfl
        obtain ⟨more, hmore⟩ := List.head?_eq_some_iff.mp (head?_of_head?_dotted hdotted)
        exact hother more rfl hmore
  | case3 => rfl

/-- **A run of colons**: each pair becomes a dot, and the one that is left over stays. -/
theorem dotted_colons (run : Nat) {behind : Text} (hbehind : behind.head? ≠ some ':') :
    dotted (List.replicate run ':' ++ behind)
      = List.replicate (run / 2) '.' ++ List.replicate (run % 2) ':' ++ dotted behind := by
  induction run using Nat.twoStepInduction with
  | zero => rfl
  | one =>
      rw [List.replicate_one, List.singleton_append, dotted]
      · rfl
      · rintro rest - rfl
        exact hbehind rfl
  | more run ih _ =>
      rw [List.replicate_succ, List.replicate_succ, List.cons_append, List.cons_append, dotted, ih,
        Nat.add_div_right run Nat.two_pos, Nat.add_mod_right, List.replicate_succ]
      rfl

/-- A path may be cut where the part in front does not end with a colon. -/
theorem dotted_append {front : Text} (hfront : front.getLast? ≠ some ':') (behind : Text) :
    dotted (front ++ behind) = dotted front ++ dotted behind := by
  fun_induction dotted front with
  | case1 rest ih =>
      have hrest : rest.getLast? ≠ some ':' := by
        intro hlast
        simp [List.getLast?_cons, hlast] at hfront
      rw [List.cons_append, List.cons_append, dotted, ih hrest, List.cons_append]
  | case2 c rest hother ih =>
      have hrest : rest.getLast? ≠ some ':' := by
        intro hlast
        simp [List.getLast?_cons, hlast] at hfront
      rw [List.cons_append, dotted, ih hrest, List.cons_append]
      rintro more rfl hmore
      cases rest with
      | nil => simp at hfront
      | cons d rest =>
          obtain ⟨rfl, -⟩ := List.cons.inj hmore
          exact hother rest rfl rfl
  | case3 => rfl

theorem loggerName_of_not_mem {path : Text} (h : ':' ∉ path) : loggerName path = path := by
  have hnone : hasDoubleColon path = false := by
    rw [Bool.eq_false_iff, ne_eq, hasDoubleColon_iff]
    exact fun hcolons => h (hcolons.subset (List.mem_cons_self ..))
  rw [loggerName_eq_dotted, dotted_of_not_hasDoubleColon hnone]

/-- **Each maximal run of colons** is turned by itself, and the text on either side of it too. -/
theorem loggerName_seam {front behind : Text} (hfront : front.getLast? ≠ some ':') (run : Nat)
    (hbehind : behind.head? ≠ some ':') :
    loggerName (front ++ List.replicate run ':' ++ behind)
      = loggerName front ++ List.replicate (run / 2) '.' ++ List.replicate (run % 2) ':'
        ++ loggerName behind := by
  rw [loggerName_eq_dotted, loggerName_eq_dotted, loggerName_eq_dotted, List.append_assoc,
    dotted_append hfront, dotted_colons run hbehind]
  simp only [List.append_assoc]

theorem dotted_pair {front : Text} (hfront : ':' ∉ front) (behind : Text) :
    dotted (front ++ [':', ':'] ++ behind) = front ++ ['.'] ++ dotted behind := by
  have hlast : front.getLast? ≠ some ':' := fun h => hfront (List.mem_of_getLast? h)
  rw [List.append_assoc, dotted_append hlast, ← loggerName_eq_dotted front,
    loggerName_of_not_mem hfront, List.append_assoc]
  rfl

/-- **Segments joined by double colons** are joined by dots. -/
theorem loggerName_intercalate {segments : List Text} (h : ∀ segment ∈ segments, ':' ∉ segment) :
    loggerName ([':', ':'].intercalate segments) = ['.'].intercalate segments := by
  induction segments with
  | nil => rfl
  | cons first rest ih =>
      obtain ⟨hfirst, hrest⟩ := List.forall_mem_cons.mp h
      cases rest with
      | nil => simpa using loggerName_of_not_mem hfirst
      | cons second more =>
          rw [List.intercalate_cons_cons, List.intercalate_cons_cons, ← ih hrest,
            loggerName_eq_dotted, loggerName_eq_dotted, dotted_pair hfirst]

theorem not_infix_loggerName (path : Text) : ¬ [':', ':'] <:+: loggerName path := by
  rw [← hasDoubleColon_iff, loggerName_eq_dotted, hasDoubleColon_dotted]
  exact Bool.false_ne_true

theorem loggerName_idem (path : Text) : loggerName (loggerName path) = loggerName path := by
  rw [loggerName_eq_dotted (loggerName path), loggerName_eq_dotted path]
  exact dotted_of_not_hasDoubleColon (hasDoubleColon_dotted path)

theorem renamed?_eq_none_iff {path : Text} : renamed? path = none ↔ loggerName path = path := by
  constructor
  · intro h
    rw [loggerName, h, Option.getD_none]
  · intro h
    have hnone := hasDoubleColon_dotted path
    rw [← loggerName_eq_dotted, h] at hnone
    rw [renamed?, hnone, if_neg Bool.false_ne_true]

end Facade

/-! ## Loggers and events -/

namespace Registry

theorem obtain_again (registry : Registry) (name : Text) :
    (registry.obtain name).value.2.obtain name = pure (registry.obtain name).value := by
  rw [obtain, find?_obtain]

end Registry

namespace Backend

variable {α : Type}

/-- The answer to a request for a logger is a logger of that name. -/
theorem logger_spec (backend : Backend α) (name : Text) :
    ∃ logger,
      (backend.logger name).value.2.registry.identity? (backend.logger name).value.1 = some logger
        ∧ logger.name = name :=
  Registry.identity?_find? (backend.registry.find?_obtain name)

theorem logger_again (backend : Backend α) (name : Text) :
    (backend.logger name).value.2.logger name = pure (backend.logger name).value := by
  have hregistry : (backend.logger name).value.2.registry
      = (backend.registry.obtain name).value.2 := rfl
  rw [logger, hregistry, Registry.obtain_again, pure_bind]
  rfl

theorem emit_eq [CivilTime] [Appender α] {backend : Backend α} {handle : Handle}
    {logger : Identity} (hlogger : backend.registry.identity? handle = some logger) (event : Event) :
    backend.emit handle event
      = { backend with renderer := (backend.renderer.render logger event).2 }.deliver logger.name
          (backend.renderer.render logger event).1 := by
  rw [emit, hlogger]

end Backend

/-- The record of a text that is logged as it is: it stands behind the fields and the blanks, and
nothing is written behind it. -/
theorem Renderer.render_plain [CivilTime] (renderer : Renderer) (logger : Identity) (origin : Origin)
    (level : Level) (text : Text) :
    let event := Event.new origin level text []
    let stamp := (renderer.stamper.stamp false origin.millis).1
    let header := Record.header renderer.layout stamp logger event
    (renderer.render logger event).1
      = header ++ Record.spacing renderer.layout.column header.length
        ++ Text.flatten renderer.layout.escaped text := by
  have hmessage : Template.message text [] = (text, none) :=
    congrArg (·, none) (Template.fill_nil text)
  intro event stamp header
  have herror : Record.error? event = none := congrArg Prod.snd hmessage
  have htext : Record.message renderer.layout.escaped event
      = Text.flatten renderer.layout.escaped text :=
    congrArg (Text.flatten renderer.layout.escaped) (congrArg Prod.fst hmessage)
  rw [Renderer.render, renderInto_eq, List.nil_append, Record.text, herror, htext]
  exact List.append_nil _

namespace Facade

variable {α : Type}

theorem isEnabled_value (backend : Backend α) {path : Text} {logger : Identity}
    (hlogger : (backend.logger (loggerName path)).value.2.registry.identity?
      (backend.logger (loggerName path)).value.1 = some logger) (priority : Priority) :
    (isEnabled backend path priority).value
      = (logger.level.admits priority.level, (backend.logger (loggerName path)).value.2) := by
  have henabled : (backend.logger (loggerName path)).value.2.isEnabled
      (backend.logger (loggerName path)).value.1 priority.level
        = logger.level.admits priority.level := by
    rw [Backend.isEnabled, hlogger, Option.any_some]
  exact congrArg (·, (backend.logger (loggerName path)).value.2) henabled

theorem isEnabled_again (backend : Backend α) (path : Text) (priority : Priority) :
    (isEnabled (isEnabled backend path priority).value.2 path priority).value
      = (isEnabled backend path priority).value := by
  have hready : (isEnabled backend path priority).value.2
      = (backend.logger (loggerName path)).value.2 := rfl
  rw [hready, isEnabled, backend.logger_again, pure_bind]
  rfl

section

variable [CivilTime] [Appender α]

/-- **Logging is the question, and then the emission or nothing.** -/
theorem log_eq (backend : Backend α) (origin : Origin) (path : Text) (priority : Priority)
    (text : Text) :
    log backend origin path priority text
      = isEnabled backend path priority >>= fun answer =>
          if answer.1 then
            answer.2.emit (backend.logger (loggerName path)).value.1
              (Event.new origin priority.level text [])
          else pure answer.2 := by
  unfold log isEnabled
  rw [bind_assoc]
  rfl

theorem log_again (backend : Backend α) (origin : Origin) (path : Text) (priority : Priority)
    (text : Text) :
    (log (isEnabled backend path priority).value.2 origin path priority text).value
      = (log backend origin path priority text).value := by
  have hready : (isEnabled backend path priority).value.2
      = (backend.logger (loggerName path)).value.2 := rfl
  rw [hready, log, backend.logger_again, pure_bind]
  rfl

/-- What logging makes of a backend: the logger is there, and the appender has the record if the
logger lets the priority through. -/
theorem log_value (backend : Backend α) {path : Text} {logger : Identity}
    (hlogger : (backend.logger (loggerName path)).value.2.registry.identity?
      (backend.logger (loggerName path)).value.1 = some logger) (origin : Origin)
    (priority : Priority) (text : Text) :
    let event := Event.new origin priority.level text []
    let logged := (log backend origin path priority text).value
    logged.registry = (backend.logger (loggerName path)).value.2.registry
      ∧ logged.appender = Appender.feed backend.appender
          (if logger.level.admits priority.level then [(backend.renderer.render logger event).1]
          else []) := by
  intro event logged
  have hlogged : logged = _ := congrArg Reported.value (log_eq backend origin path priority text)
  rw [Reported.value_bind, isEnabled_value backend hlogger] at hlogged
  cases hadmits : logger.level.admits priority.level with
  | true =>
      rw [hadmits, if_pos rfl, Backend.emit_eq hlogger] at hlogged
      rw [hlogged]
      exact ⟨rfl, rfl⟩
  | false =>
      rw [hadmits, if_neg Bool.false_ne_true] at hlogged
      rw [hlogged]
      exact ⟨rfl, rfl⟩

/-- **The facade is the native path.** In any state of a backend, of any path and text: whether a
priority is let through is what the logger says that the backend has, or makes, for the name of the
path; asking it makes the logger and changes nothing else, so that the next question has the same
answer. To log is to ask and then to emit an event of that logger whose template is the text, without
arguments, or to do nothing; whether it was asked before makes no difference. So the appender gets one
record or none, and the record is the fields, the blanks and the text with its control characters made
visible: nothing in it is a placeholder.

The name of a path has a dot for each pair of colons of a maximal run, and the colon that is left over;
the rest is as it was. So segments joined by double colons are joined by dots; no double colon is left,
and the name of a name is the name; and the path itself is handed on just if it is its own name. -/
theorem log_is_native :
    (∀ (backend : Backend α) (origin : Origin) (path : Text) (priority : Priority) (text : Text),
      let handle := (backend.logger (loggerName path)).value.1
      let registry := (backend.logger (loggerName path)).value.2.registry
      let asked := isEnabled backend path priority
      let logged := log backend origin path priority text
      let event := Event.new origin priority.level text []
      ∃ logger, registry.identity? handle = some logger
        ∧ logger.name = loggerName path
        ∧ asked.value = (logger.level.admits priority.level, { backend with registry })
        ∧ (isEnabled asked.value.2 path priority).value = asked.value
        ∧ logged = (asked >>= fun answer =>
            if answer.1 then answer.2.emit handle event else pure answer.2)
        ∧ (log asked.value.2 origin path priority text).value = logged.value
        ∧ logged.value.registry = registry
        ∧ logged.value.appender = Appender.feed backend.appender
            (if asked.value.1 then [(backend.renderer.render logger event).1] else [])
        ∧ let layout := backend.renderer.layout
          let stamp := (backend.renderer.stamper.stamp false origin.millis).1
          let header := Record.header layout stamp logger event
          (backend.renderer.render logger event).1
            = header ++ Record.spacing layout.column header.length
              ++ Text.flatten layout.escaped text)
      ∧ (∀ (front behind : Text) (run : Nat), front.getLast? ≠ some ':' →
          behind.head? ≠ some ':' →
          loggerName (front ++ List.replicate run ':' ++ behind)
            = loggerName front ++ List.replicate (run / 2) '.' ++ List.replicate (run % 2) ':'
              ++ loggerName behind)
      ∧ (∀ path, ':' ∉ path → loggerName path = path)
      ∧ (∀ segments, (∀ segment ∈ segments, ':' ∉ segment) →
          loggerName ([':', ':'].intercalate segments) = ['.'].intercalate segments)
      ∧ ∀ path, ¬ [':', ':'] <:+: loggerName path
          ∧ loggerName (loggerName path) = loggerName path
          ∧ (renamed? path = none ↔ loggerName path = path) := by
  refine ⟨?_, fun front behind run hfront hbehind => loggerName_seam hfront run hbehind,
    fun path => loggerName_of_not_mem, fun segments => loggerName_intercalate,
    fun path => ⟨not_infix_loggerName path, loggerName_idem path, renamed?_eq_none_iff⟩⟩
  intro backend origin path priority text handle registry asked logged event
  obtain ⟨logger, hlogger, hname⟩ := backend.logger_spec (loggerName path)
  have hasked : asked.value = (logger.level.admits priority.level, { backend with registry }) :=
    isEnabled_value backend hlogger priority
  obtain ⟨hregistry, happender⟩ := log_value backend hlogger origin priority text
  refine ⟨logger, hlogger, hname, hasked, isEnabled_again backend path priority,
    log_eq backend origin path priority text, log_again backend origin path priority text,
    hregistry, ?_, backend.renderer.render_plain logger origin priority.level text⟩
  rw [hasked]
  exact happender

end

/-- A path with three colons in a row, and a text that would be a template. -/
theorem log_is_native_placeholder :
    "a".toList.getLast? ≠ some ':'
      ∧ "b".toList.head? ≠ some ':'
      ∧ loggerName "a:::b".toList = "a".toList ++ ".:".toList ++ "b".toList
      ∧ (isEnabled (Backend.new Settings.empty {} Memory.empty) "a:::b".toList .warn).value.1 = true
      ∧ ∃ record, "{}|".toList <:+ record
        ∧ (log (Backend.new Settings.empty {} Memory.empty) ⟨0, none⟩ "a:::b".toList .warn
            "{}\n".toList).value.appender = Appender.feed Memory.empty [record] := by
  obtain ⟨hlog, hseam, hplain, -⟩ := @log_is_native Memory _ _
  have hfront : "a".toList.getLast? ≠ some ':' := by decide
  have hbehind : "b".toList.head? ≠ some ':' := by decide
  have hname := hseam "a".toList "b".toList 3 hfront hbehind
  rw [hplain "a".toList (by decide), hplain "b".toList (by decide)] at hname
  have henabled :
      (isEnabled (Backend.new Settings.empty {} Memory.empty) "a:::b".toList .warn).value.1 = true := by
    decide +kernel
  obtain ⟨logger, -, -, -, -, -, -, -, happender, hrecord⟩ :=
    hlog (Backend.new Settings.empty {} Memory.empty) ⟨0, none⟩ "a:::b".toList .warn "{}\n".toList
  rw [henabled, if_pos rfl] at happender
  refine ⟨hfront, hbehind, hname, henabled, _, ?_, happender⟩
  rw [hrecord]
  exact List.suffix_append _ _

end Facade

end Logbook
