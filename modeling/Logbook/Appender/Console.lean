import Logbook.Appender

/-!
# Logbook — records on the console

An appender that writes each record as a line of one of the two console streams, which take all that
is written to them here. Nothing is held back, so a flush has nothing to do.
-/

namespace Logbook

/-- The two streams of a console. -/
inductive ConsoleStream where
  | standardError
  | standardOutput
  deriving DecidableEq, Repr

/-- A stream of the console with the text written to it. -/
structure Console where
  stream : ConsoleStream
  written : Text

namespace Console

/-- A console on which nothing is written yet. -/
def new (stream : ConsoleStream) : Console :=
  ⟨stream, []⟩

/-- The console that is used if no other is chosen. -/
def standard : Console :=
  new .standardError

/-- The text on one of the streams. -/
def writtenTo (console : Console) (stream : ConsoleStream) : Text :=
  if console.stream = stream then console.written else []

/-- The stream in inspection text. -/
def streamName (console : Console) : Text :=
  match console.stream with
  | .standardError => "Stderr".toList
  | .standardOutput => "Stdout".toList

instance : Appender Console where
  name _ := "console".toList
  append console record :=
    (.accepted, { console with written := console.written ++ record ++ ['\n'] })
  flush console := (.ok (), console)
  release console := console

end Console

end Logbook
