import Logbook.Proofs.Renderer

/-!
# Logbook — the column of the message

The width of a header is counted in characters, from where the record begins. The spacing behind it
leads up to the column of the layout, and is never empty, so the message begins at that column or,
if the header is too wide for it, one blank behind the header.

* **`Record.length_header`** — the width of a header, field by field.
* **`Record.startColumn`** — where the message of a header of some width begins.
* **`Record.text_regions`** — the record up to the header's end, up to that column, and from there
  on.
* **`Renderer.message_stands_at_column`** — the headline, about a renderer after any number of
  records and with anything in the buffer.
-/

namespace Logbook

namespace Record

/-- Levels are written five characters wide. -/
theorem length_column (level : Level) : level.column.length = 5 := by
  cases level <;> rfl

theorem length_header (layout : Layout) (stamp : Text) (logger : Identity) (event : Event) :
    (header layout stamp logger event).length
      = stamp.length + 9 + (shownName layout logger).length + (event.label.getD []).length := by
  simp only [header, List.length_append, List.length_cons, List.length_nil, length_column]
  omega

/-- The column at which the message begins, behind a header of this width. -/
def startColumn (layout : Layout) (width : Nat) : Nat :=
  max layout.column (width + 1)

theorem spacing_eq (layout : Layout) (width : Nat) :
    spacing layout.column width = List.replicate (startColumn layout width - width) ' ' := by
  have hblanks : max 1 (layout.column - width) = startColumn layout width - width := by
    unfold startColumn
    omega
  rw [spacing, hblanks]

/-- **The regions of a record.** The header is followed by blanks up to the column of the message,
and this by the message and what is written of the error. -/
theorem text_regions (layout : Layout) (stamp : Text) (logger : Identity) (event : Event)
    {width : Nat} (hwidth : (header layout stamp logger event).length = width) :
    let record := text layout stamp logger event
    let column := startColumn layout width
    record.take width = header layout stamp logger event
      ∧ (∀ i, width ≤ i → i < column → record[i]? = some ' ')
      ∧ record.drop column = message layout.escaped event
          ++ errorPart layout.escaped logger.hidesStacks (error? event) := by
  intro record column
  have hcolumn : width < column := by
    show width < startColumn layout width
    unfold startColumn
    omega
  have hrecord : record = header layout stamp logger event
      ++ (List.replicate (column - width) ' '
        ++ (message layout.escaped event
          ++ errorPart layout.escaped logger.hidesStacks (error? event))) := by
    rw [← spacing_eq, ← hwidth]
    simp only [record, text, List.append_assoc]
  have hlead : (header layout stamp logger event
      ++ List.replicate (column - width) ' ').length = column := by
    rw [List.length_append, hwidth, List.length_replicate]
    omega
  refine ⟨?_, fun i hleft hright => ?_, ?_⟩
  · rw [hrecord]
    exact List.take_left' hwidth
  · rw [hrecord, ← List.append_assoc, List.getElem?_append_left (by omega),
      List.getElem?_append_right (by omega), List.getElem?_replicate, if_pos (by omega)]
  · rw [hrecord, ← List.append_assoc]
    exact List.drop_left' hlead

end Record

/-- **The message stands at its column.** The header of a record is as wide as its time, name and
label and nine characters more. The message begins at the column of the layout or one blank behind
the header, whichever is further right, and there are only blanks in between: one of them just when
the column of the layout is no further right than that. None of this changes with the message, the
error and how it is shown, the escape option, what stands in the buffer, and what was rendered
before. -/
theorem Renderer.message_stands_at_column [CivilTime] (layout : Layout) (logger : Identity)
    (event : Event) :
    let stamp := Timestamp.text layout.zone event.millis
    let name := if layout.condensed then logger.condensed else logger.name
    let label := event.label.getD []
    let header := stamp ++ ':' :: event.level.column ++ ':' :: name ++ ':' :: label ++ [':']
    let width := stamp.length + 9 + name.length + label.length
    let column := max layout.column (width + 1)
    header.length = width
      ∧ width < column
      ∧ (column - width = 1 ↔ layout.column ≤ width + 1)
      ∧ ∀ (earlier : List Rendering) (busy : Bool) (buffer : Text) (escaped hides : Bool)
          (template : Text) (arguments : List Argument) (error : Option ErrorChain),
          let asked := { event with template, arguments, error }
          ∃ record,
            (((new { layout with escaped }).after earlier).renderInto busy buffer
                { logger with hidesStacks := hides } asked).1 = buffer ++ record
            ∧ record.take width = header
            ∧ (∀ i, width ≤ i → i < column → record[i]? = some ' ')
            ∧ record.drop column
              = Text.flatten escaped (Template.message template arguments).1
                ++ Record.errorPart escaped hides (Record.error? asked) := by
  intro stamp name label header width column
  have hwidth : header.length = width := Record.length_header layout stamp logger event
  refine ⟨hwidth, by omega, by omega, ?_⟩
  intro earlier busy buffer escaped hides template arguments error asked
  -- a renderer has no memory, so it writes the record of the event behind the buffer
  have hfaithful := isFaithful_after (isFaithful_new { layout with escaped }) earlier
  refine ⟨_, (renderInto_spec hfaithful busy buffer _ asked).1, ?_⟩
  exact Record.text_regions { layout with escaped } stamp { logger with hidesStacks := hides } asked
    hwidth

/-- A header of 42 characters, some of them of several bytes, behind a text in the buffer: with its
message at column 43 there is one blank, and with its message at column 44 there are two. -/
theorem Renderer.message_stands_at_column_accented :
    let logger := Identity.new "ab.Été".toList .warn false
    let event := Event.new ⟨0, some "tâche".toList⟩ .warn "fini".toList []
    let record := fun column : Nat =>
      (((new { column, zone := .utc }).renderInto true "déjà".toList logger event).1).drop 4
    ((record 43)[42]? = some ' ' ∧ (record 43).drop 43 = "fini".toList)
      ∧ (record 44)[42]? = some ' ' ∧ (record 44)[43]? = some ' '
      ∧ (record 44).drop 44 = "fini".toList := by
  intro logger event record
  have hregions := fun column =>
    (message_stands_at_column { column, zone := .utc } logger event).2.2.2 [] true "déjà".toList
      true false "fini".toList [] none
  constructor
  · obtain ⟨text, htext, -, hblank, hmessage⟩ := hregions 43
    have hrecord : record 43 = text := congrArg (List.drop 4) htext
    rw [hrecord]
    exact ⟨hblank 42 (by decide) (by decide),
      (congrArg (List.drop · text) (by decide)).trans hmessage⟩
  · obtain ⟨text, htext, -, hblank, hmessage⟩ := hregions 44
    have hrecord : record 44 = text := congrArg (List.drop 4) htext
    rw [hrecord]
    exact ⟨hblank 42 (by decide) (by decide), hblank 43 (by decide) (by decide),
      (congrArg (List.drop · text) (by decide)).trans hmessage⟩

end Logbook
