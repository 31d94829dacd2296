import Logbook.Appender
import Logbook.Destination
import Logbook.Text.Inspect

/-!
# Logbook — records in a stream

An appender that writes each record as a line to a destination, all of the line at once. A buffer
may stand in between: lines gather in it up to its capacity and go out together.

* **`Stream`** — a destination, with or without a buffer, open or closed.
* **`Stream.put`** — one line on its way: into the buffer, or past it if it is too long for it.
* **`Stream.close`** — flushes and gives up the destination; later records are refused.
-/

namespace Logbook

/-- A named destination of records, possibly behind a buffer. -/
structure Stream (δ : Type) where
  name : Text
  /-- The text that waits in the buffer, if there is a buffer. -/
  buffer : Option Text
  /-- Whether records are taken. -/
  isOpen : Bool
  destination : δ

namespace Stream

variable {δ : Type} [Destination δ]

/-- The name of a stream that is given no other. -/
def defaultName : Text := "stream".toList

/-- The number of bytes that a buffer holds. -/
def capacity : Nat := 8192

/-- A stream behind a buffer. -/
def buffered (name : Text) (destination : δ) : Stream δ :=
  ⟨name, some [], true, destination⟩

/-- A stream without a buffer. -/
def unbuffered (name : Text) (destination : δ) : Stream δ :=
  ⟨name, none, true, destination⟩

/-- Writes a text to the destination. -/
def writeOut (stream : Stream δ) (text : Text) : Except Text Unit × Stream δ :=
  let (outcome, destination) := Destination.write stream.destination text
  (outcome, { stream with destination })

/-- Empties the buffer into the destination. If that fails the text stays in the buffer. -/
def drain (stream : Stream δ) : Except Text Unit × Stream δ :=
  match stream.buffer with
  | none => (.ok (), stream)
  | some [] => (.ok (), stream)
  | some waiting =>
    match stream.writeOut waiting with
    | (.ok (), stream) => (.ok (), { stream with buffer := some [] })
    | (.error reason, stream) => (.error reason, stream)

/-- Puts a text behind what waits in the buffer, or past it if the text alone fills the buffer. -/
def hold (stream : Stream δ) (text : Text) : Except Text Unit × Stream δ :=
  if capacity ≤ Text.byteLength text then stream.writeOut text
  else (.ok (), { stream with buffer := some (stream.buffer.getD [] ++ text) })

/-- Writes a text, by way of the buffer if there is one. A text that does not fit behind what waits
makes that go out first; if it cannot, the text is lost. -/
def put (stream : Stream δ) (text : Text) : Except Text Unit × Stream δ :=
  match stream.buffer with
  | none => stream.writeOut text
  | some waiting =>
    if Text.byteLength waiting + Text.byteLength text ≤ capacity then stream.hold text
    else
      match stream.drain with
      | (.ok (), stream) => stream.hold text
      | (.error reason, stream) => (.error reason, stream)

/-- Empties the buffer and flushes the destination. -/
def flushOut (stream : Stream δ) : Except Text Unit × Stream δ :=
  match stream.drain with
  | (.ok (), stream) =>
    let (outcome, destination) := Destination.flush stream.destination
    (outcome, { stream with destination })
  | (.error reason, stream) => (.error reason, stream)

/-- Gives up the destination, with one more try to empty the buffer into it. -/
def giveUp (stream : Stream δ) : Stream δ :=
  let stream := stream.drain.2
  { stream with isOpen := false, buffer := stream.buffer.map fun _ => [] }

/-- Flushes and gives up the destination. Closing again does nothing. -/
def close (stream : Stream δ) : Except Failure Unit × Stream δ :=
  if stream.isOpen then
    let (outcome, stream) := stream.flushOut
    (outcome.mapError fun reason =>
        .operation "closing stream".toList ("appender ".toList ++ stream.name) reason,
      stream.giveUp)
  else (.ok (), stream)

/-- Takes a record as a line. -/
def append (stream : Stream δ) (record : Text) : Delivery × Stream δ :=
  if stream.isOpen then
    match stream.put (record ++ ['\n']) with
    | (.ok (), stream) => (.accepted, stream)
    | (.error reason, stream) => (.refused (.io reason), stream)
  else (.refused (.writer (stream.name ++ " appender is closed".toList)), stream)

/-- Passes on what waits in the buffer. A closed stream has nothing to pass on. -/
def flush (stream : Stream δ) : Except Failure Unit × Stream δ :=
  if stream.isOpen then
    let (outcome, stream) := stream.flushOut
    (outcome.mapError .io, stream)
  else (.ok (), stream)

/-- What becomes of a stream that nobody uses any more: it is flushed and gives up its destination,
whether or not that succeeds. -/
def release (stream : Stream δ) : Stream δ :=
  if stream.isOpen then stream.flushOut.2.giveUp else stream

instance : Appender (Stream δ) where
  name stream := stream.name
  append := append
  flush := flush
  release := release

/-- The stream in inspection text. -/
def inspect (stream : Stream δ) : Text :=
  Inspect.fields "StreamAppender"
    [("name", Inspect.quoted stream.name), ("open", Inspect.truth stream.isOpen)]

end Stream

end Logbook
