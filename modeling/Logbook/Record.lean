import Logbook.Event
import Logbook.Layout
import Logbook.Registry
import Logbook.Template
import Logbook.Timestamp
import Logbook.Trace

/-!
# Logbook — records

An event of a logger becomes one record:

    timestamp:LEVEL:name:label: message

An error follows the message: its description on the same line if the logger hides stacks, and else
its trace on the lines below.

* **`Record.header`**, **`Record.spacing`** — the fields in front, and the blanks up to the message.
* **`Record.message`**, **`Record.errorPart`** — the message, and what is written of the error.
* **`Renderer`** — a layout with a stamper, which renders one record after another.
-/

namespace Logbook

namespace Record

/-- The name of a logger as the layout asks for it. -/
def shownName (layout : Layout) (logger : Identity) : Text :=
  if layout.condensed then logger.condensed else logger.name

/-- The fields in front of the message, each with a colon behind it. -/
def header (layout : Layout) (stamp : Text) (logger : Identity) (event : Event) : Text :=
  stamp ++ ':' :: event.level.column ++ ':' :: shownName layout logger
    ++ ':' :: event.label.getD [] ++ [':']

/-- The blanks between the header and the message: up to the column of the layout, and at least
one. The column counts characters. -/
def spacing (column width : Nat) : Text :=
  List.replicate (max 1 (column - width)) ' '

/-- The error of an event: the one it is about, or else one at the end of its arguments. -/
def error? (event : Event) : Option ErrorChain :=
  event.error <|> (Template.message event.template event.arguments).2

/-- What is written of an error: with stacks hidden its description, and else its trace. -/
def errorPart (escaped hidesStacks : Bool) : Option ErrorChain → Text
  | none => []
  | some chain =>
    if hidesStacks then ": ".toList ++ Text.flatten escaped chain.description
    else chain.trace.text escaped []

/-- The message of an event. -/
def message (escaped : Bool) (event : Event) : Text :=
  Text.flatten escaped (Template.message event.template event.arguments).1

/-- The record of an event, given the text of its time. -/
def text (layout : Layout) (stamp : Text) (logger : Identity) (event : Event) : Text :=
  let header := header layout stamp logger event
  header ++ spacing layout.column header.length ++ message layout.escaped event
    ++ errorPart layout.escaped logger.hidesStacks (error? event)

end Record

/-- Renders records in one layout. The only thing it remembers is the stamper's last second. -/
structure Renderer where
  layout : Layout
  stamper : Stamper

namespace Renderer

/-- A renderer that has rendered nothing yet. -/
def new (layout : Layout) : Renderer :=
  ⟨layout, Stamper.new layout.zone⟩

/-- Renders an event behind a text that is there already. The stamper may be `busy` with another
record. The column of the message is counted from where the record begins. -/
def renderInto [CivilTime] (renderer : Renderer) (busy : Bool) (buffer : Text) (logger : Identity)
    (event : Event) : Text × Renderer :=
  let layout := renderer.layout
  let (stamp, stamper) := renderer.stamper.stamp busy event.millis
  let out := buffer ++ Record.header layout stamp logger event
  let width := (out.drop buffer.length).length
  let out := out ++ Record.spacing layout.column width
  let out := out ++ Record.message layout.escaped event
  let out := out ++ Record.errorPart layout.escaped logger.hidesStacks (Record.error? event)
  (out, { renderer with stamper })

/-- Renders an event. -/
def render [CivilTime] (renderer : Renderer) (logger : Identity) (event : Event) :
    Text × Renderer :=
  renderer.renderInto false [] logger event

end Renderer

end Logbook
