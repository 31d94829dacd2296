import Logbook.Proofs.Name.Segments
import Logbook.Proofs.Record.Ink
import Logbook.Proofs.Renderer

/-!
# Logbook — no control character gets in through a message or an error

With escaping on, a control character of a record belongs to the logger's name, to the label, or to
the layout of an error chain. Templates, arguments, descriptions and frames contribute none, whatever
they hold and by whatever way they come.

* **`Ink.IsSound`** — what a character may be, by its source; `Record.isSound_ink` shows it of every
  character of a record.
* **`Ink.standIn`** — what escaping makes of a character, said without `Text.visible`.
* **`render_control`** — the headline, about a renderer after any number of records.
-/

namespace Logbook

open Text

/-! ## What each source may contribute -/

/-- The only control characters of the text are line feeds and tabs. -/
def Text.IsLined (text : Text) : Prop :=
  ∀ c ∈ text, isControl c → c = '\n' ∨ c = '\t'

instance (text : Text) : Decidable text.IsLined :=
  List.decidableBAll (fun c => isControl c → c = '\n' ∨ c = '\t') text

theorem Text.IsLined.append {a b : Text} (ha : a.IsLined) (hb : b.IsLined) : (a ++ b).IsLined :=
  List.forall_mem_append.mpr ⟨ha, hb⟩

/-- A character that may stand in a record that is not escaped yet: a fixed text has no control
character, and the layout of an error chain has line feeds and tabs only. -/
def Ink.IsSound (ink : Ink) : Prop :=
  match ink.source with
  | .fixed => isControl ink.char = false
  | .chain => isControl ink.char → ink.char = '\n' ∨ ink.char = '\t'
  | .name => True
  | .label => True
  | .message => True
  | .description => True
  | .frame => True

/-- What escaping shows in the place of a character. -/
def Ink.standIn (ink : Ink) : Char :=
  if ink.source.isUser && isControl ink.char then
    if ink.char = '\n' then '|' else if ink.char = '\r' then '<' else '?'
  else ink.char

theorem Ink.shown_true (ink : Ink) : ink.shown true = ink.standIn := by
  unfold Ink.shown Ink.standIn
  cases ink.source.isUser with
  | false => simp
  | true => simp [visible_eq]

theorem Ink.shown_false (ink : Ink) : ink.shown false = ink.char := rfl

theorem Ink.standIn_of_source {ink : Ink} (h : ink.source = .name ∨ ink.source = .label) :
    ink.standIn = ink.char := by
  rcases h with h | h
  · simp [Ink.standIn, h, Source.isUser]
  · simp [Ink.standIn, h, Source.isUser]

/-- **A sound character that is shown as a control character** is not a user's: what a user chose was
made visible. -/
theorem Ink.IsSound.source_of_isControl {ink : Ink} (h : ink.IsSound)
    (hcontrol : isControl ink.standIn) :
    ink.source = .name ∨ ink.source = .label
      ∨ (ink.source = .chain ∧ (ink.standIn = '\n' ∨ ink.standIn = '\t')) := by
  obtain ⟨source, c⟩ := ink
  -- for a user's character the stand-in is visible, against `hcontrol`
  have huser : source.isUser → False := by
    intro huser
    rw [← Ink.shown_true, Ink.shown] at hcontrol
    simp [huser, isControl_visible] at hcontrol
  cases source with
  | name => exact Or.inl rfl
  | label => exact Or.inr (Or.inl rfl)
  | message => exact (huser rfl).elim
  | description => exact (huser rfl).elim
  | frame => exact (huser rfl).elim
  | fixed =>
      have hplain : isControl c = false := h
      have hcontrol' : isControl c = true := hcontrol
      rw [hplain] at hcontrol'
      cases hcontrol'
  | chain => exact Or.inr (Or.inr ⟨rfl, h hcontrol⟩)

/-! ## Error chains -/

namespace Trace

theorem isLined_newLine {indent : Text} (h : indent.IsLined) : (newLine indent).IsLined :=
  List.forall_mem_cons.mpr ⟨fun _ => Or.inl rfl, h⟩

theorem isLined_nested {indent : Text} (h : indent.IsLined) : (nested indent).IsLined := by
  have hmark : IsLined "\t|".toList := by decide
  exact hmark.append h

/-- A property of characters that every description and every frame has, and that every line break,
indentation and label has. -/
structure Covers (p : Ink → Prop) : Prop where
  description : ∀ c, p ⟨.description, c⟩
  frame : ∀ c, p ⟨.frame, c⟩
  chain : ∀ c, (isControl c → c = '\n' ∨ c = '\t') → p ⟨.chain, c⟩

variable {p : Ink → Prop}

theorem Covers.forall_mem_chain (hp : Covers p) {text : Text} (h : text.IsLined) :
    ∀ ink ∈ Ink.ofText .chain text, p ink :=
  Ink.forall_mem_ofText.mpr fun c hc => hp.chain c (h c hc)

theorem Covers.forall_mem_entryInk (hp : Covers p) {indent : Text} (h : indent.IsLined)
    (description : Text) (frames : List Text) :
    ∀ ink ∈ entryInk indent description frames, p ink := by
  have hat : IsLined "\tat ".toList := by decide
  unfold entryInk
  simp only [List.forall_mem_append, List.forall_mem_flatMap]
  refine ⟨⟨hp.forall_mem_chain (isLined_newLine h), ?_⟩, ?_⟩
  · exact Ink.forall_mem_ofText.mpr fun c _ => hp.description c
  · intro frame _
    exact ⟨hp.forall_mem_chain ((isLined_newLine h).append hat),
      Ink.forall_mem_ofText.mpr fun c _ => hp.frame c⟩

-- on the trace, with the indentation free: it grows on the way into the suppressed traces
mutual

theorem Covers.forall_mem_ink (hp : Covers p) {indent : Text} (h : indent.IsLined) :
    ∀ trace, ∀ ink ∈ Trace.ink indent trace, p ink
  | .seen description => by
      have hlabel : IsLined "[CIRCULAR REFERENCE: ".toList := by decide
      have hend : IsLined "]".toList := by decide
      simp only [Trace.ink, List.forall_mem_append]
      refine ⟨⟨hp.forall_mem_chain ((isLined_newLine h).append hlabel), ?_⟩,
        hp.forall_mem_chain hend⟩
      exact Ink.forall_mem_ofText.mpr fun c _ => hp.description c
  | .last description frames suppressed => by
      simp only [Trace.ink, List.forall_mem_append]
      exact ⟨hp.forall_mem_entryInk h description frames,
        hp.forall_mem_suppressedInk h suppressed⟩
  | .caused description frames suppressed cause => by
      have hlabel : IsLined "Caused by: ".toList := by decide
      simp only [Trace.ink, List.forall_mem_append]
      refine ⟨⟨⟨hp.forall_mem_entryInk h description frames, ?_⟩, ?_⟩, ?_⟩
      · exact hp.forall_mem_suppressedInk h suppressed
      · exact hp.forall_mem_chain ((isLined_newLine h).append hlabel)
      · exact hp.forall_mem_ink h cause

theorem Covers.forall_mem_suppressedInk (hp : Covers p) {indent : Text} (h : indent.IsLined) :
    ∀ traces, ∀ ink ∈ Trace.suppressedInk indent traces, p ink
  | [] => nofun
  | trace :: rest => by
      have hlabel : IsLined "Suppressed: ".toList := by decide
      simp only [Trace.suppressedInk, List.forall_mem_append]
      refine ⟨⟨hp.forall_mem_chain ((isLined_newLine h).append hlabel), ?_⟩, ?_⟩
      · exact hp.forall_mem_ink (isLined_nested h) trace
      · exact hp.forall_mem_suppressedInk h rest

end

end Trace

/-! ## Records -/

namespace Record

theorem isSound_fixed {text : Text} (h : text.IsPlain) :
    ∀ ink ∈ Ink.ofText .fixed text, ink.IsSound :=
  Ink.forall_mem_ofText.mpr h

theorem isSound_errorInk (hidesStacks : Bool) (error : Option ErrorChain) :
    ∀ ink ∈ errorInk hidesStacks error, ink.IsSound := by
  cases error with
  | none => exact nofun
  | some chain =>
      cases hidesStacks with
      | false =>
          have hsound : Trace.Covers Ink.IsSound :=
            ⟨fun _ => trivial, fun _ => trivial, fun _ hc => hc⟩
          exact hsound.forall_mem_ink (by decide) chain.trace
      | true =>
          have hcolon : IsPlain ": ".toList := by decide
          exact List.forall_mem_append.mpr
            ⟨isSound_fixed hcolon, Ink.forall_mem_ofText.mpr fun _ _ => trivial⟩

theorem isPlain_column (level : Level) : level.column.IsPlain := by
  cases level <;> decide

/-- **Every character of a record is sound**, if the time has no control character. -/
theorem isSound_ink {stamp : Text} (hstamp : stamp.IsPlain) (layout : Layout) (logger : Identity)
    (event : Event) : ∀ ink ∈ Record.ink layout stamp logger event, ink.IsSound := by
  have hcolon : isControl ':' = false := by decide
  have hblank : isControl ' ' = false := by decide
  have hfront : (stamp ++ ':' :: event.level.column ++ [':']).IsPlain := by
    simp [hstamp, hcolon, isPlain_column]
  have hspacing :
      IsPlain (':' :: spacing layout.column (header layout stamp logger event).length) :=
    isPlain_cons.mpr ⟨hcolon, isPlain_replicate hblank _⟩
  simp only [Record.ink, frontInk, backInk, List.forall_mem_append]
  refine ⟨⟨⟨⟨isSound_fixed hfront, ?_⟩, isSound_fixed (by simp [hcolon])⟩, ?_⟩,
    ⟨isSound_fixed hspacing, ?_⟩, isSound_errorInk logger.hidesStacks (error? event)⟩
  · exact Ink.forall_mem_ofText.mpr fun _ _ => trivial
  · exact Ink.forall_mem_ofText.mpr fun _ _ => trivial
  · exact Ink.forall_mem_ofText.mpr fun _ _ => trivial

/-! ## The fields of the name and of the label -/

theorem source_of_mem_frontInk {stamp : Text} {event : Event} :
    ∀ ink ∈ frontInk stamp event, ink.source ≠ .name ∧ ink.source ≠ .label :=
  Ink.forall_mem_ofText.mpr fun _ _ => by simp

/-- Nothing of an error is in these fields. -/
theorem source_of_mem_errorInk (hidesStacks : Bool) (error : Option ErrorChain) :
    ∀ ink ∈ errorInk hidesStacks error, ink.source ≠ .name ∧ ink.source ≠ .label := by
  cases error with
  | none => exact nofun
  | some chain =>
      cases hidesStacks with
      | false =>
          have hsource : Trace.Covers fun ink => ink.source ≠ .name ∧ ink.source ≠ .label :=
            ⟨fun _ => by simp, fun _ => by simp, fun _ _ => by simp⟩
          exact hsource.forall_mem_ink (by decide) chain.trace
      | true =>
          exact List.forall_mem_append.mpr
            ⟨Ink.forall_mem_ofText.mpr fun _ _ => by simp,
              Ink.forall_mem_ofText.mpr fun _ _ => by simp⟩

theorem source_of_mem_backInk {layout : Layout} {stamp : Text} {logger : Identity} {event : Event} :
    ∀ ink ∈ backInk layout stamp logger event, ink.source ≠ .name ∧ ink.source ≠ .label := by
  simp only [backInk, List.forall_mem_append]
  refine ⟨⟨?_, ?_⟩, source_of_mem_errorInk _ _⟩
  · exact Ink.forall_mem_ofText.mpr fun _ _ => by simp
  · exact Ink.forall_mem_ofText.mpr fun _ _ => by simp

/-- The name and the label stand in their own fields only. -/
theorem char_mem_of_source {layout : Layout} {stamp : Text} {logger : Identity} {event : Event} :
    ∀ ink ∈ Record.ink layout stamp logger event,
      (ink.source = .name → ink.char ∈ shownName layout logger)
        ∧ (ink.source = .label → ink.char ∈ event.label.getD []) := by
  -- a character of any other field has neither source
  have hother : ∀ {inks : List Ink}, (∀ ink ∈ inks, ink.source ≠ .name ∧ ink.source ≠ .label) →
      ∀ ink ∈ inks, (ink.source = .name → ink.char ∈ shownName layout logger)
        ∧ (ink.source = .label → ink.char ∈ event.label.getD []) :=
    fun h ink hink => ⟨fun hname => absurd hname (h ink hink).1,
      fun hlabel => absurd hlabel (h ink hink).2⟩
  simp only [Record.ink, List.forall_mem_append]
  refine ⟨⟨⟨⟨hother source_of_mem_frontInk, ?_⟩, ?_⟩, ?_⟩, hother source_of_mem_backInk⟩
  · refine Ink.forall_mem_ofText.mpr fun c hc => ⟨fun _ => hc, fun hlabel => ?_⟩
    cases hlabel
  · exact hother (Ink.forall_mem_ofText.mpr fun _ _ => by simp)
  · refine Ink.forall_mem_ofText.mpr fun c hc => ⟨fun hname => ?_, fun _ => hc⟩
    cases hname

/-- Only a trace has a layout of its own: without an error, and with stacks hidden, there is none. -/
theorem source_ne_chain {layout : Layout} {stamp : Text} {logger : Identity} {event : Event}
    (hinline : error? event = none ∨ logger.hidesStacks = true) :
    ∀ ink ∈ Record.ink layout stamp logger event, ink.source ≠ .chain := by
  have herror : ∀ ink ∈ errorInk logger.hidesStacks (error? event), ink.source ≠ .chain := by
    rcases hinline with hnone | hhides
    · rw [hnone]
      exact nofun
    · cases herror : error? event with
      | none => exact nofun
      | some chain =>
          simp only [errorInk, hhides, if_true]
          exact List.forall_mem_append.mpr
            ⟨Ink.forall_mem_ofText.mpr fun _ _ => by simp,
              Ink.forall_mem_ofText.mpr fun _ _ => by simp⟩
  simpa [Record.ink, frontInk, backInk, or_imp, forall_and] using herror

theorem isPlain_shownName {name : Text} (hname : name.IsPlain) (layout : Layout) (level : Level)
    (hides : Bool) : (shownName layout (Identity.new name level hides)).IsPlain := by
  unfold shownName
  split
  · have hdotted : IsPlain ('.' :: name) := isPlain_cons.mpr ⟨by decide, hname⟩
    exact hdotted.subset (Name.condense_subset name)
  · exact hname

/-- **A record without a trace is plain** if the name and the label are. -/
theorem isPlain_map_standIn {layout : Layout} {stamp name : Text} {level : Level} {hides : Bool}
    {event : Event} (hstamp : stamp.IsPlain) (hname : name.IsPlain)
    (hlabel : (event.label.getD []).IsPlain) (hinline : error? event = none ∨ hides = true) :
    IsPlain ((Record.ink layout stamp (Identity.new name level hides) event).map Ink.standIn) := by
  refine List.forall_mem_map.mpr fun i hi => Bool.eq_false_iff.mpr fun hcontrol => ?_
  have hsound := isSound_ink hstamp layout (Identity.new name level hides) event i hi
  obtain ⟨hshown, hlabelled⟩ := char_mem_of_source i hi
  -- a control character would be in the name, in the label or in a trace
  rcases hsound.source_of_isControl hcontrol with hsource | hsource | ⟨hsource, -⟩
  · have hplain := isPlain_shownName hname layout level hides i.char (hshown hsource)
    rw [Ink.standIn_of_source (Or.inl hsource), hplain] at hcontrol
    cases hcontrol
  · have hplain := hlabel i.char (hlabelled hsource)
    rw [Ink.standIn_of_source (Or.inr hsource), hplain] at hcontrol
    cases hcontrol
  · exact source_ne_chain hinline i hi hsource

end Record

/-! ## The headline -/

/-- What a renderer writes is a view of the characters of the record, whatever it rendered before. -/
theorem Renderer.render_eq_map_ink [CivilTime] (layout : Layout) (escaped : Bool)
    (earlier : List Rendering) (logger : Identity) (event : Event) :
    (((Renderer.new { layout with escaped }).after earlier).render logger event).1
      = (Record.ink layout (Timestamp.text layout.zone event.millis) logger event).map
          (Ink.shown escaped) := by
  rw [render_after, Record.text_eq_map_ink]
  rfl

/-- **No control character gets in through a message or an error.** A renderer that escapes and one
that does not, whatever each has rendered before, write the same characters of the same sources; where
the raw record has a control character of a message, a description or a frame, the other has its
stand-in. The escaped record has control characters in the field of the name, in the field of the
label and in the layout of an error chain, and there line feeds and tabs only. -/
theorem render_control [CivilTime] (layout : Layout) (earlier others : List Rendering) (name : Text)
    (level : Level) (hides : Bool) (event : Event) :
    let logger := Identity.new name level hides
    let quiet :=
      (((Renderer.new { layout with escaped := true }).after earlier).render logger event).1
    let raw :=
      (((Renderer.new { layout with escaped := false }).after others).render logger event).1
    let ink := Record.ink layout (Timestamp.text layout.zone event.millis) logger event
    raw = ink.map Ink.char
      ∧ quiet = ink.map Ink.standIn
      ∧ quiet.length = raw.length
      ∧ (∀ i ∈ ink, i.source.isUser → isControl i.standIn = false)
      ∧ (∀ i ∈ ink, isControl i.standIn →
          i.source = .name ∨ i.source = .label
            ∨ (i.source = .chain ∧ (i.standIn = '\n' ∨ i.standIn = '\t')))
      ∧ (∃ front between back,
          ink = front ++ Ink.ofText .name (Record.shownName layout logger) ++ between
              ++ Ink.ofText .label (event.label.getD []) ++ back
            ∧ ∀ i ∈ front ++ between ++ back, i.source ≠ .name ∧ i.source ≠ .label)
      ∧ (name.IsPlain → (event.label.getD []).IsPlain →
          (Record.error? event = none ∨ hides = true) → quiet.IsPlain) := by
  intro logger quiet raw ink
  have hstamp := Timestamp.isPlain_text layout.zone event.millis
  have hsound : ∀ i ∈ ink, i.IsSound := Record.isSound_ink hstamp layout logger event
  have hraw : raw = ink.map Ink.char :=
    (Renderer.render_eq_map_ink layout false others logger event).trans
      (List.map_congr_left fun i _ => Ink.shown_false i)
  have hquiet : quiet = ink.map Ink.standIn :=
    (Renderer.render_eq_map_ink layout true earlier logger event).trans
      (List.map_congr_left fun i _ => Ink.shown_true i)
  refine ⟨hraw, hquiet, by rw [hquiet, hraw, List.length_map, List.length_map], ?_, ?_, ?_, ?_⟩
  · intro i _ huser
    rw [← Ink.shown_true, Ink.shown, huser]
    exact isControl_visible i.char
  · intro i hi hcontrol
    exact (hsound i hi).source_of_isControl hcontrol
  · refine ⟨Record.frontInk (Timestamp.text layout.zone event.millis) event, Ink.ofText .fixed [':'],
      Record.backInk layout (Timestamp.text layout.zone event.millis) logger event, rfl, ?_⟩
    simp only [List.forall_mem_append]
    refine ⟨⟨Record.source_of_mem_frontInk, ?_⟩, Record.source_of_mem_backInk⟩
    exact Ink.forall_mem_ofText.mpr fun _ _ => by simp
  · intro hname hlabel hinline
    rw [hquiet]
    exact Record.isPlain_map_standIn hstamp hname hlabel hinline

/-- A forged second line, tried through the template and through an argument in a list. -/
theorem render_control_forged :
    let event := Event.new ⟨0, some "main".toList⟩ .info "done\n{}".toList
      [.list [.value "\r\nERROR:app".toList]]
    ((Renderer.new {}).render (Identity.new "app".toList .info false) event).1.IsPlain := by
  intro event
  have hcontrol := render_control {} [] [] "app".toList .info false event
  exact hcontrol.2.2.2.2.2.2 (by decide) (by decide) (Or.inl rfl)

end Logbook
