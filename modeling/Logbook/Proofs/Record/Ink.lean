import Logbook.Proofs.Text.Control
import Logbook.Record

/-!
# Logbook — where the characters of a record come from

A record is laid out here a second time, character by character and each with its source. Nothing is
escaped on the way: whether a character is shown as it is or made visible depends on its source
alone, and so the record with escaping on and the one with escaping off are two views of one list.

* **`Source`**, **`Ink`** — a character with where it comes from.
* **`Trace.ink`**, **`Record.ink`** — the layout of an error chain and of a record.
* **`Trace.text_eq_map_ink`**, **`Record.text_eq_map_ink`** — both views, for either setting.
-/

namespace Logbook

/-- Where a character of a record comes from. -/
inductive Source where
  /-- The time, the level, the separators and the blanks. -/
  | fixed
  | name
  | label
  | message
  | description
  | frame
  /-- The line breaks, the indentation and the labels of an error chain. -/
  | chain
  deriving DecidableEq, Repr

/-- Whether a user of the library chose the character, as part of a text that is escaped. -/
def Source.isUser : Source → Bool
  | fixed => false
  | name => false
  | label => false
  | message => true
  | description => true
  | frame => true
  | chain => false

/-- A character with its source. -/
structure Ink where
  source : Source
  char : Char
  deriving DecidableEq, Repr

namespace Ink

/-- The character as a record shows it. -/
def shown (escaped : Bool) (ink : Ink) : Char :=
  if escaped && ink.source.isUser then Text.visible ink.char else ink.char

/-- A text from one source. -/
def ofText (source : Source) (text : Text) : List Ink :=
  text.map (Ink.mk source)

@[simp] theorem forall_mem_ofText {source : Source} {text : Text} {p : Ink → Prop} :
    (∀ ink ∈ ofText source text, p ink) ↔ ∀ c ∈ text, p ⟨source, c⟩ :=
  List.forall_mem_map

/-- A text is shown flattened if it is a user's and escaping is on. -/
@[simp] theorem map_shown_ofText (escaped : Bool) (source : Source) (text : Text) :
    (ofText source text).map (shown escaped) = Text.flatten (escaped && source.isUser) text := by
  cases hboth : escaped && source.isUser with
  | false => simp [ofText, shown, Text.flatten, Function.comp_def, hboth]
  | true => simp [ofText, shown, Text.flatten, Function.comp_def, hboth]

end Ink

/-! ## Error chains -/

namespace Trace

/-- An entry: the line of its description, and its frames below. -/
def entryInk (indent description : Text) (frames : List Text) : List Ink :=
  Ink.ofText .chain (newLine indent) ++ Ink.ofText .description description
    ++ frames.flatMap fun frame =>
        Ink.ofText .chain (newLine indent ++ "\tat ".toList) ++ Ink.ofText .frame frame

mutual

/-- The lines of a trace at an indentation. -/
def ink (indent : Text) : Trace → List Ink
  | .seen description =>
    Ink.ofText .chain (newLine indent ++ "[CIRCULAR REFERENCE: ".toList)
      ++ Ink.ofText .description description ++ Ink.ofText .chain "]".toList
  | .last description frames suppressed =>
    entryInk indent description frames ++ suppressedInk indent suppressed
  | .caused description frames suppressed cause =>
    entryInk indent description frames ++ suppressedInk indent suppressed
      ++ Ink.ofText .chain (newLine indent ++ "Caused by: ".toList) ++ ink indent cause

/-- The lines of suppressed errors, each under its label. -/
def suppressedInk (indent : Text) : List Trace → List Ink
  | [] => []
  | trace :: rest =>
    Ink.ofText .chain (newLine indent ++ "Suppressed: ".toList) ++ ink (nested indent) trace
      ++ suppressedInk indent rest

end

theorem entryText_eq_map_ink (escaped : Bool) (indent description : Text) (frames : List Text) :
    entryText escaped indent description frames
      = (entryInk indent description frames).map (Ink.shown escaped) := by
  simp [entryText, entryInk, List.map_flatMap, Source.isUser]

mutual

theorem text_eq_map_ink (escaped : Bool) (indent : Text) :
    ∀ trace, text escaped indent trace = (ink indent trace).map (Ink.shown escaped)
  | .seen description => by
      simp [text, ink, Source.isUser]
  | .last description frames suppressed => by
      rw [text, ink, List.map_append, entryText_eq_map_ink,
        suppressedText_eq_map_ink escaped indent suppressed]
  | .caused description frames suppressed cause => by
      rw [text, ink, entryText_eq_map_ink, suppressedText_eq_map_ink escaped indent suppressed,
        text_eq_map_ink escaped indent cause]
      simp [Source.isUser]

theorem suppressedText_eq_map_ink (escaped : Bool) (indent : Text) :
    ∀ traces, suppressedText escaped indent traces
      = (suppressedInk indent traces).map (Ink.shown escaped)
  | [] => rfl
  | trace :: rest => by
      rw [suppressedText, suppressedInk, text_eq_map_ink escaped (nested indent) trace,
        suppressedText_eq_map_ink escaped indent rest]
      simp [Source.isUser]

end

end Trace

/-! ## Records -/

namespace Record

/-- What is written of the error: inline its description, and else its trace. -/
def errorInk (hidesStacks : Bool) : Option ErrorChain → List Ink
  | none => []
  | some chain =>
    if hidesStacks then Ink.ofText .fixed ": ".toList ++ Ink.ofText .description chain.description
    else chain.trace.ink []

/-- The time and the level, in front of the name. -/
def frontInk (stamp : Text) (event : Event) : List Ink :=
  Ink.ofText .fixed (stamp ++ ':' :: event.level.column ++ [':'])

/-- What follows the label. -/
def backInk (layout : Layout) (stamp : Text) (logger : Identity) (event : Event) : List Ink :=
  Ink.ofText .fixed (':' :: spacing layout.column (header layout stamp logger event).length)
    ++ Ink.ofText .message (Template.message event.template event.arguments).1
    ++ errorInk logger.hidesStacks (error? event)

/-- The characters of a record. -/
def ink (layout : Layout) (stamp : Text) (logger : Identity) (event : Event) : List Ink :=
  frontInk stamp event ++ Ink.ofText .name (shownName layout logger) ++ Ink.ofText .fixed [':']
    ++ Ink.ofText .label (event.label.getD []) ++ backInk layout stamp logger event

theorem errorPart_eq_map_ink (escaped hidesStacks : Bool) (error : Option ErrorChain) :
    errorPart escaped hidesStacks error
      = (errorInk hidesStacks error).map (Ink.shown escaped) := by
  cases error with
  | none => rfl
  | some chain =>
      cases hidesStacks with
      | false => simpa [errorPart, errorInk] using Trace.text_eq_map_ink escaped [] chain.trace
      | true => simp [errorPart, errorInk, Source.isUser]

/-- **A record is a view of its characters.** -/
theorem text_eq_map_ink (layout : Layout) (stamp : Text) (logger : Identity) (event : Event) :
    text layout stamp logger event
      = (ink layout stamp logger event).map (Ink.shown layout.escaped) := by
  rw [text, errorPart_eq_map_ink]
  simp [ink, frontInk, backInk, header, message, Source.isUser]

end Record

end Logbook
