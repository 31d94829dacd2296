import Logbook.Proofs.Renderer
import Logbook.Proofs.Template.Message

/-!
# Logbook — the two parts of a record

A record is a lead and behind it an error part. The lead holds the header, the spacing and the
message; it is the same whatever error the event is about and whether or not the logger hides its
stacks. The error part is made from the error, the escape option and that flag alone.

* **`Argument.splitError_append`** — only the last argument can be taken off as the error.
* **`Template.message_description`** — an error in front of other arguments is as good as its
  description.
* **`Record.lead`**, **`Record.text_of_splits`** — the two parts, for every error and either flag.
* **`Renderer.record_is_lead_and_error`** — the headline, about a renderer after any number of
  records.
-/

namespace Logbook

theorem Argument.splitError_append (front : List Argument) {back : List Argument} (h : back ≠ []) :
    splitError (front ++ back) = (front ++ (splitError back).1, (splitError back).2) := by
  have hlast : (front ++ back).getLast? = back.getLast? := by
    rw [List.getLast?_append, List.getLast?_eq_some_getLast h]
    rfl
  unfold splitError
  rw [hlast]
  cases back.getLast? >>= error? with
  | none => rfl
  | some chain => rw [List.dropLast_append_of_ne_nil h]

/-- **An error in front of other arguments is an ordinary argument**: its description does as well.
-/
theorem Template.message_description (template : Text) (before : List Argument) (chain : ErrorChain)
    {after : List Argument} (h : after ≠ []) :
    message template (before ++ .error chain :: after)
      = message template (before ++ .value chain.description :: after) := by
  have hsplit : ∀ argument, Argument.splitError (before ++ argument :: after)
      = (before ++ argument :: (Argument.splitError after).1, (Argument.splitError after).2) := by
    intro argument
    rw [List.append_cons, Argument.splitError_append _ h, ← List.append_cons]
  unfold message
  rw [hsplit, hsplit]
  simp only [List.map_append, List.map_cons, Argument.text]

namespace Record

/-- What stands in front of the error part: the header, the spacing and a message. -/
def lead (layout : Layout) (stamp : Text) (logger : Identity) (event : Event) (message : Text) :
    Text :=
  let header := header layout stamp logger event
  header ++ spacing layout.column header.length ++ Text.flatten layout.escaped message

/-- The lead does not change with the error that the event is about, nor with the logger's flag. -/
theorem text_of_splits (layout : Layout) (stamp : Text) (logger : Identity) (event : Event)
    {outline : Template.Outline} (houtline : outline.text = event.template)
    {given : List Argument} {trailing : Option ErrorChain}
    (h : Argument.Splits event.arguments given trailing) (hides : Bool)
    (error : Option ErrorChain) :
    text layout stamp { logger with hidesStacks := hides } { event with error }
      = lead layout stamp logger event (outline.filled (given.map Argument.text))
        ++ errorPart layout.escaped hides (error <|> trailing) := by
  have hmessage : Template.message event.template event.arguments
      = (outline.filled (given.map Argument.text), trailing) :=
    houtline ▸ Template.message_of_splits h
  unfold text Record.message Record.error?
  dsimp only
  rw [hmessage]
  rfl

/-- An error at the end of the arguments does not show beside one that the event is about. -/
theorem text_trailing (layout : Layout) (stamp : Text) (logger : Identity) (event : Event)
    (error chain other : ErrorChain) (given : List Argument) :
    text layout stamp logger
        { event with error := some error, arguments := given ++ [.error chain] }
      = text layout stamp logger
          { event with error := some error, arguments := given ++ [.error other] } := by
  obtain ⟨outline, houtline⟩ := Template.Outline.text_surjective event.template
  have hparts : ∀ last : ErrorChain, text layout stamp logger
      { event with error := some error, arguments := given ++ [.error last] }
        = lead layout stamp logger event (outline.filled (given.map Argument.text))
          ++ errorPart layout.escaped logger.hidesStacks (some error) := fun last =>
    text_of_splits layout stamp logger { event with arguments := given ++ [.error last] } houtline
      (.error given last) logger.hidesStacks (some error)
  rw [hparts, hparts]

/-- An error in front of other arguments is written as its description, and is no error of the
event. -/
theorem text_description (layout : Layout) (stamp : Text) (logger : Identity) (event : Event)
    (before : List Argument) (chain : ErrorChain) {after : List Argument} (h : after ≠ []) :
    text layout stamp logger { event with arguments := before ++ .error chain :: after }
      = text layout stamp logger
          { event with arguments := before ++ .value chain.description :: after } := by
  unfold text Record.message Record.error?
  dsimp only
  rw [Template.message_description event.template before chain h]
  rfl

end Record

/-- **A record is a lead and an error part.** The lead holds the message, that is, the slots of the
template with the texts of the arguments, without an error at their end; every error that the event
may be about and either flag leave the lead as it is. Behind it stands nothing if there is no
error, and else the description or the trace. An error at the end of the arguments does not show
beside one that the event is about; at any other place it is an ordinary argument, with its
description for a text. What has been rendered before shows in none of this. -/
theorem Renderer.record_is_lead_and_error [CivilTime] (layout : Layout) (logger : Identity)
    (event : Event) :
    let record := fun (earlier : List Rendering) (logger : Identity) (event : Event) =>
      (((new layout).after earlier).render logger event).1
    ∃ (outline : Template.Outline) (given : List Argument) (trailing : Option ErrorChain),
      outline.text = event.template
        ∧ Argument.Splits event.arguments given trailing
        ∧ (∀ (earlier : List Rendering) (hides : Bool) (error : Option ErrorChain),
            record earlier { logger with hidesStacks := hides } { event with error }
              = Record.lead layout (Timestamp.text layout.zone event.millis) logger event
                  (outline.filled (given.map Argument.text))
                ++ match error <|> trailing with
                  | none => []
                  | some chain =>
                    if hides then ": ".toList ++ Text.flatten layout.escaped chain.description
                    else chain.trace.text layout.escaped [])
        ∧ (∀ (earlier others : List Rendering) (error other : ErrorChain), trailing.isSome →
            record earlier logger { event with error := some error }
              = record others logger
                  { event with error := some error, arguments := given ++ [.error other] })
        ∧ (∀ (earlier others : List Rendering) (before after : List Argument)
              (chain : ErrorChain), after ≠ [] →
            event.arguments = before ++ .error chain :: after →
              record earlier logger event
                = record others logger
                    { event with arguments := before ++ .value chain.description :: after }) := by
  intro record
  -- a renderer has no memory, so all that is said of records is said of `Record.text`
  have hrecord : ∀ earlier logger event, record earlier logger event
      = Record.text layout (Timestamp.text layout.zone event.millis) logger event :=
    render_after layout
  obtain ⟨outline, houtline⟩ := Template.Outline.text_surjective event.template
  obtain ⟨given, trailing, hsplits⟩ : ∃ given trailing,
      Argument.Splits event.arguments given trailing :=
    ⟨_, _, Argument.splits_splitError event.arguments⟩
  refine ⟨outline, given, trailing, houtline, hsplits, ?_, ?_, ?_⟩
  · intro earlier hides error
    rw [hrecord, Record.text_of_splits layout _ logger event houtline hsplits]
    rfl
  · intro earlier others error other hsome
    obtain ⟨chain, rfl⟩ := Option.isSome_iff_exists.mp hsome
    rw [hrecord, hrecord]
    have htrailing := Record.text_trailing layout (Timestamp.text layout.zone event.millis) logger
      event error chain other given
    rw [← hsplits.arguments_eq] at htrailing
    exact htrailing
  · intro earlier others before after chain hafter harguments
    rw [hrecord, hrecord]
    have hdescription := Record.text_description layout
      (Timestamp.text layout.zone event.millis) logger event before chain hafter
    rw [← harguments] at hdescription
    exact hdescription

end Logbook
